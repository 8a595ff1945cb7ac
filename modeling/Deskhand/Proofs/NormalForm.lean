import Deskhand.Proofs.Editing
import Deskhand.Proofs.Publishing
import Deskhand.Proofs.SpacedDelays
import Mathlib.Data.List.DropRight

/-!
# What normal forms are

Taking the ending off an application's name leaves all other words where they are, and leaves the name
with its ending only where it had the ending twice. So a script that was put into normal form stays as
it is when it is put into normal form once more, exactly if no name in it had its ending twice; and
nothing is left of a script exactly if it has only line feeds. What is published for a request has
both faults where its script has them, since only the script that came in is checked.
-/

namespace Deskhand

namespace Text

variable {old new : Text}

/-- Texts are gone through from left to right, a part that is replaced counting as one step. -/
theorem replace_induction {P : Text → Prop} (hold : old ≠ []) (nil : P [])
    (part : ∀ t, P t → P (old ++ t)) (cons : ∀ c t, ¬ old <+: c :: t → P t → P (c :: t)) (t : Text) :
    P t := by
  induction hn : t.length using Nat.strong_induction_on generalizing t with
  | _ n ih =>
    by_cases hp : old <+: t
    · obtain ⟨rest, rfl⟩ := hp
      have hlength := List.length_pos_of_ne_nil hold
      exact part rest (ih rest.length (by rw [List.length_append] at hn; omega) rest rfl)
    · cases t with
      | nil => exact nil
      | cons c t => exact cons c t hp (ih t.length (by rw [List.length_cons] at hn; omega) t rfl)

/-- The part at the beginning is replaced, and then what follows. -/
theorem replaceAll_self_append (hold : old ≠ []) (t : Text) :
    replaceAll (old ++ t) old new = new ++ replaceAll t old new := by
  simp only [replaceAll_of_ne_nil hold, replaceFrom_self_append hold]

/-- Where the part does not begin, a character stays. -/
theorem replaceAll_cons {c : Char} {t : Text} (hold : old ≠ []) (h : ¬ old <+: c :: t) :
    replaceAll (c :: t) old new = c :: replaceAll t old new := by
  rw [replaceAll_of_ne_nil hold, replaceAll_of_ne_nil hold, replaceFrom,
    if_neg (by rwa [List.isPrefixOf_iff_prefix])]

/-- Putting in less than is taken out makes a text shorter, if anything is taken out. -/
theorem length_replaceAll_lt (h : new.length < old.length) {t : Text} (hoccurs : old <:+: t) :
    (replaceAll t old new).length < t.length := by
  have hold : old ≠ [] := by
    rintro rfl
    exact Nat.not_lt_zero _ h
  have hle : ∀ u, (replaceAll u old new).length ≤ u.length := fun u ↦ by
    rw [replaceAll_of_ne_nil hold]
    exact length_replaceFrom_le h.le 0
  induction t using replace_induction hold with
  | nil => exact absurd (List.infix_nil.mp hoccurs) hold
  | part t _ =>
    rw [replaceAll_self_append hold, List.length_append, List.length_append]
    have := hle t
    omega
  | cons c t hno ih =>
    rw [replaceAll_cons hold hno, List.length_cons, List.length_cons]
    exact Nat.succ_lt_succ (ih ((List.infix_cons_iff.mp hoccurs).resolve_left hno))

private theorem trimEnd_eq_nil_iff {drop : Char → Bool} {t : Text} :
    trimEnd drop t = [] ↔ ∀ c ∈ t, drop c = true := List.rdropWhile_eq_nil_iff

/-- A text is left alone exactly if it does not end in a character that is dropped. -/
theorem trimEnd_eq_self_iff {drop : Char → Bool} {t : Text} :
    trimEnd drop t = t ↔ ∀ c, t.getLast? = some c → drop c = false := by
  refine List.rdropWhile_eq_self_iff.trans ⟨fun h c hc ↦ ?_, fun h hne ↦ ?_⟩
  · obtain ⟨u, rfl⟩ := List.getLast?_eq_some_iff.mp hc
    simpa using h (by simp)
  · simpa using h _ (List.getLast?_eq_getLast_of_ne_nil hne)

private theorem trimEnd_trimEnd (drop : Char → Bool) (t : Text) :
    trimEnd drop (trimEnd drop t) = trimEnd drop t := List.rdropWhile_idempotent _ t

/-- A word that ends in a character that is not dropped occurs where it did before. -/
theorem infix_trimEnd_iff (drop : Char → Bool) {w : Text} {c : Char} (hc : drop c = false)
    (t : Text) : w ++ [c] <:+: trimEnd drop t ↔ w ++ [c] <:+: t := by
  have hreverse : ∀ u : Text, c :: w.reverse <:+: u.dropWhile drop ↔ c :: w.reverse <:+: u := by
    intro u
    induction u with
    | nil => rfl
    | cons d u ih =>
      cases hd : drop d with
      | false => rw [List.dropWhile_cons_of_neg (by simp [hd])]
      | true =>
        rw [List.dropWhile_cons_of_pos hd, ih, List.infix_cons_iff, List.cons_prefix_cons]
        refine (or_iff_right fun h ↦ ?_).symm
        rw [h.1, hd] at hc
        cases hc
  have hword : c :: w.reverse = (w ++ [c]).reverse := by simp
  rw [trimEnd, ← List.reverse_infix, List.reverse_reverse, ← hword, hreverse, hword,
    List.reverse_infix]

end Text

namespace Broker

/-! ### One name -/

/-- The ending of an application's name. -/
def ending : Text := ".exe"

/-- Takes the ending off a name wherever it has one. -/
def dropEnding (name t : Text) : Text := Text.replaceAll t (name ++ ending) name

section Name

variable {c : Char} {stem : Text}

private theorem dropEnding_nil : dropEnding (c :: stem) [] = [] := rfl

private theorem dropEnding_named (t : Text) :
    dropEnding (c :: stem) (c :: (stem ++ ending ++ t)) =
      c :: (stem ++ dropEnding (c :: stem) t) :=
  Text.replaceAll_self_append (List.cons_ne_nil c (stem ++ ending)) t

private theorem dropEnding_cons {d : Char} {t : Text} (h : ¬ c :: (stem ++ ending) <+: d :: t) :
    dropEnding (c :: stem) (d :: t) = d :: dropEnding (c :: stem) t :=
  Text.replaceAll_cons (List.cons_ne_nil c (stem ++ ending)) h

private theorem ending_induction (c : Char) (stem : Text) {P : Text → Prop} (nil : P [])
    (named : ∀ t, P t → P (c :: (stem ++ ending ++ t)))
    (cons : ∀ d t, ¬ c :: (stem ++ ending) <+: d :: t → P t → P (d :: t)) (t : Text) : P t :=
  Text.replace_induction (List.cons_ne_nil c (stem ++ ending)) nil named cons t

/-- A word in which the name cannot begin is there at the beginning as before. -/
theorem prefix_dropEnding_iff {v : Text} (hv : c ∉ v) (t : Text) :
    v <+: dropEnding (c :: stem) t ↔ v <+: t := by
  induction t using ending_induction c stem generalizing v with
  | nil => rfl
  | named t _ =>
    rw [dropEnding_named]
    cases v with
    | nil => simp
    | cons d v =>
      have hd : d ≠ c := fun h ↦ hv (by simp [h])
      rw [List.cons_prefix_cons, List.cons_prefix_cons]
      exact iff_of_false (fun h ↦ hd h.1) fun h ↦ hd h.1
  | cons d t hno ih =>
    rw [dropEnding_cons hno]
    cases v with
    | nil => simp
    | cons e v =>
      rw [List.cons_prefix_cons, List.cons_prefix_cons]
      exact and_congr_right fun _ ↦ ih fun h ↦ hv (List.mem_cons_of_mem e h)

/-- A word that cannot begin inside the name or its ending occurs in a text exactly where another one
occurred, if it does so at the beginning of every text. -/
theorem infix_dropEnding_iff_of_prefix {x : Char} {v v' : Text} (hx : x ∉ stem ++ ending)
    (h : ∀ t, x :: v <+: dropEnding (c :: stem) t ↔ x :: v' <+: t) (t : Text) :
    x :: v <:+: dropEnding (c :: stem) t ↔ x :: v' <:+: t := by
  have hstem : x ∉ stem := fun hm ↦ hx (List.mem_append_left _ hm)
  induction t using ending_induction c stem with
  | nil => exact iff_of_false (by simp [dropEnding_nil]) (by simp)
  | named t ih =>
    have hstart := h (c :: (stem ++ ending ++ t))
    rw [dropEnding_named] at hstart ⊢
    rw [List.infix_cons_iff, List.infix_cons_iff, hstart, Text.infix_append_of_not_mem hstem,
      Text.infix_append_of_not_mem hx]
    exact or_congr_right ih
  | cons d t hno ih =>
    have hstart := h (d :: t)
    rw [dropEnding_cons hno] at hstart ⊢
    rw [List.infix_cons_iff, List.infix_cons_iff, hstart]
    exact or_congr_right ih

/-- A name with its ending is left exactly where it had the ending twice. -/
theorem infix_dropEnding_self_iff (c : Char) (stem : Text) (hc : c ∉ stem ++ ending) (t : Text) :
    c :: (stem ++ ending) <:+: dropEnding (c :: stem) t ↔
      c :: (stem ++ ending ++ ending) <:+: t := by
  refine infix_dropEnding_iff_of_prefix hc (fun t ↦ ?_) t
  have hending : c ∉ ending := fun hm ↦ hc (List.mem_append_right _ hm)
  cases t using ending_induction c stem with
  | nil => simp [dropEnding_nil]
  | named t =>
    rw [dropEnding_named, List.cons_prefix_cons, List.cons_prefix_cons,
      List.prefix_append_right_inj, List.prefix_append_right_inj]
    exact and_congr_right fun _ ↦ prefix_dropEnding_iff hending t
  | cons d t hno =>
    rw [dropEnding_cons hno]
    refine iff_of_false (fun h ↦ hno ?_) fun h ↦ hno ?_
    · obtain ⟨rfl, hrest⟩ := List.cons_prefix_cons.mp h
      exact List.cons_prefix_cons.mpr ⟨rfl, (prefix_dropEnding_iff hc t).mp hrest⟩
    · exact (List.prefix_append (c :: (stem ++ ending)) ending).trans h

/-- A name and a word do not meet: neither begins inside the other, and they part before one of them
ends. -/
structure Apart (c : Char) (stem : Text) (x : Char) (v : Text) : Prop where
  outside : x ∉ stem ++ ending
  absent : c ∉ v
  shorter : ¬ x :: v <+: c :: stem
  longer : ¬ c :: stem <+: x :: v

instance (x : Char) (v : Text) : Decidable (Apart c stem x v) :=
  decidable_of_iff (x ∉ stem ++ ending ∧ c ∉ v ∧ ¬ x :: v <+: c :: stem ∧ ¬ c :: stem <+: x :: v)
    ⟨fun h ↦ ⟨h.1, h.2.1, h.2.2.1, h.2.2.2⟩,
      fun h ↦ ⟨h.outside, h.absent, h.shorter, h.longer⟩⟩

/-- A word that does not meet the name occurs as it did before. -/
theorem Apart.infix_iff {x : Char} {v : Text} (h : Apart c stem x v) (t : Text) :
    x :: v <:+: dropEnding (c :: stem) t ↔ x :: v <:+: t := by
  refine infix_dropEnding_iff_of_prefix h.outside (fun t ↦ ?_) t
  have hpart : ∀ u, ¬ x :: v <+: c :: stem ++ u := fun u hu ↦
    (List.prefix_or_prefix_of_prefix hu (List.prefix_append _ u)).elim h.shorter h.longer
  cases t using ending_induction c stem with
  | nil => simp [dropEnding_nil]
  | named t =>
    rw [dropEnding_named, List.append_assoc]
    exact iff_of_false (hpart _) (hpart _)
  | cons d t hno =>
    rw [dropEnding_cons hno, List.cons_prefix_cons, List.cons_prefix_cons]
    exact and_congr_right fun _ ↦ prefix_dropEnding_iff h.absent t

/-- If a property that the first character lacks holds of all characters before, it does so
afterwards. -/
theorem forall_mem_dropEnding_iff (c : Char) (stem : Text) {P : Char → Prop} (hP : ¬ P c)
    (t : Text) :
    (∀ d ∈ dropEnding (c :: stem) t, P d) ↔ ∀ d ∈ t, P d := by
  induction t using ending_induction c stem with
  | nil => rfl
  | named t _ =>
    rw [dropEnding_named]
    exact iff_of_false (fun h ↦ hP (h c List.mem_cons_self)) fun h ↦ hP (h c List.mem_cons_self)
  | cons d t hno ih =>
    rw [dropEnding_cons hno, List.forall_mem_cons, List.forall_mem_cons]
    exact and_congr_right fun _ ↦ ih

end Name

private theorem dropEnding_eq_self {name t : Text} (h : ¬ name ++ ending <:+: t) :
    dropEnding name t = t := Text.replaceAll_of_not_infix h

private theorem not_infix_of_length_le {name t : Text} (h : t.length ≤ (dropEnding name t).length) :
    ¬ name ++ ending <:+: t := by
  intro hoccurs
  have hshorter : (dropEnding name t).length < t.length :=
    Text.length_replaceAll_lt (by simp [ending]) hoccurs
  omega

private theorem length_dropEnding_le (name t : Text) : (dropEnding name t).length ≤ t.length := by
  by_cases h : name ++ ending <:+: t
  · exact (Text.length_replaceAll_lt (by simp [ending]) h).le
  · exact (congrArg List.length (dropEnding_eq_self h)).le

/-! ### All names -/

/-- The names that lose their endings. -/
def applications : List Text := ["notepad", "cmd", "chrome"]

private theorem dropEndings_eq (t : Text) :
    dropEndings t = dropEnding "chrome" (dropEnding "cmd" (dropEnding "notepad" t)) := rfl

/-- A text has no name that has its ending twice. -/
def Undoubled (t : Text) : Prop := ∀ name ∈ applications, ¬ name ++ ending ++ ending <:+: t

/-- A script that needs no change: each `DELAY` stands apart from a digit, no name has its ending, and
there is no line feed at the end. -/
structure Tidy (t : Text) : Prop where
  spaced : ¬ HasTightDelay t
  bare : ∀ name ∈ applications, ¬ name ++ ending <:+: t
  ended : t.getLast? ≠ some '\n'

/-- The names with their endings that are left are those that had them twice. -/
theorem infix_dropEndings_iff {name : Text} (h : name ∈ applications) (t : Text) :
    name ++ ending <:+: dropEndings t ↔ name ++ ending ++ ending <:+: t := by
  rw [dropEndings_eq]
  simp only [applications, List.mem_cons, List.not_mem_nil, or_false] at h
  rcases h with rfl | rfl | rfl
  · have hcmd : Apart 'c' "md" 'n' "otepad.exe" := by decide
    have hchrome : Apart 'c' "hrome" 'n' "otepad.exe" := by decide
    exact (hchrome.infix_iff _).trans ((hcmd.infix_iff _).trans
      (infix_dropEnding_self_iff 'n' "otepad" (by decide) t))
  · have hchrome : Apart 'c' "hrome" 'c' "md.exe" := by decide
    have hnotepad : Apart 'n' "otepad" 'c' "md.exe.exe" := by decide
    exact (hchrome.infix_iff _).trans
      ((infix_dropEnding_self_iff 'c' "md" (by decide) _).trans
        (hnotepad.infix_iff t))
  · have hcmd : Apart 'c' "md" 'c' "hrome.exe.exe" := by decide
    have hnotepad : Apart 'n' "otepad" 'c' "hrome.exe.exe" := by decide
    exact (infix_dropEnding_self_iff 'c' "hrome" (by decide) _).trans
      ((hcmd.infix_iff _).trans (hnotepad.infix_iff t))

/-- Dropping endings puts no digit after a `DELAY`. -/
theorem hasTightDelay_of_dropEndings {t : Text} (h : HasTightDelay (dropEndings t)) :
    HasTightDelay t := by
  obtain ⟨d, hd, hoccurs⟩ := h
  have hapart : ∀ {c : Char} {stem : Text}, Text.isDecimal c = false → c ∉ delayWord →
      'D' ∉ stem ++ ending → Apart c stem 'D' ("ELAY".toList ++ [d]) := by
    intro c stem hc hdelay hstem
    have hne : c ≠ 'D' := fun h ↦ hdelay (h ▸ List.mem_cons_self)
    refine ⟨hstem, fun hm ↦ ?_, fun hp ↦ ?_, fun hp ↦ ?_⟩
    · rcases List.mem_append.mp hm with hm | hm
      · exact hdelay (List.mem_cons_of_mem 'D' hm)
      · rw [List.mem_singleton.mp hm, hd] at hc
        cases hc
    · exact hne (List.cons_prefix_cons.mp hp).1.symm
    · exact hne (List.cons_prefix_cons.mp hp).1
  have hnotepad : Apart 'n' "otepad" 'D' ("ELAY".toList ++ [d]) :=
    hapart (by decide) (by decide) (by decide)
  have hcmd : Apart 'c' "md" 'D' ("ELAY".toList ++ [d]) :=
    hapart (by decide) (by decide) (by decide)
  have hchrome : Apart 'c' "hrome" 'D' ("ELAY".toList ++ [d]) :=
    hapart (by decide) (by decide) (by decide)
  exact ⟨d, hd, (hnotepad.infix_iff t).mp ((hcmd.infix_iff _).mp ((hchrome.infix_iff _).mp hoccurs))⟩

private theorem dropEndings_eq_self {t : Text}
    (h : ∀ name ∈ applications, ¬ name ++ ending <:+: t) :
    dropEndings t = t := by
  have hbare : ∀ name ∈ applications, dropEnding name t = t := fun name hname ↦
    dropEnding_eq_self (h name hname)
  simp only [applications, List.forall_mem_cons] at hbare
  rw [dropEndings_eq, hbare.1, hbare.2.1, hbare.2.2.1]

/-- A text that does not get shorter has no name with its ending. -/
theorem bare_of_length_le {t : Text} (h : t.length ≤ (dropEndings t).length) :
    ∀ name ∈ applications, ¬ name ++ ending <:+: t := by
  rw [dropEndings_eq] at h
  have hchrome := length_dropEnding_le "chrome" (dropEnding "cmd" (dropEnding "notepad" t))
  have hcmd := length_dropEnding_le "cmd" (dropEnding "notepad" t)
  -- each name in turn leaves the text as it is, so the next one meets the same text
  have hfirst := not_infix_of_length_le (h.trans (hchrome.trans hcmd))
  rw [dropEnding_eq_self hfirst] at h hchrome
  have hsecond := not_infix_of_length_le (h.trans hchrome)
  rw [dropEnding_eq_self hsecond] at h
  simp only [applications, List.forall_mem_cons]
  exact ⟨hfirst, hsecond, not_infix_of_length_le h, List.forall_mem_nil _⟩

/-! ### Normal forms -/

private theorem not_hasTightDelay_normalise (t : Text) : ¬ HasTightDelay (normalise t) := by
  rintro ⟨d, hd, hoccurs⟩
  have hline : (d == '\n') = false := by
    rw [beq_eq_false_iff_ne]
    rintro rfl
    exact absurd hd (by decide)
  rw [normalise, Text.infix_trimEnd_iff (· == '\n') hline] at hoccurs
  exact not_hasTightDelay_spaceDelays t (hasTightDelay_of_dropEndings ⟨d, hd, hoccurs⟩)

private theorem getLast?_normalise_ne (t : Text) : (normalise t).getLast? ≠ some '\n' := fun h ↦
  Bool.false_ne_true
    (Text.trimEnd_eq_self_iff.mp (Text.trimEnd_trimEnd (· == '\n') _) '\n' h).symm

private theorem infix_normalise_iff {name : Text} (h : name ∈ applications) (t : Text) :
    name ++ ending <:+: normalise t ↔ name ++ ending ++ ending <:+: t := by
  have hlast : name ++ ending = name ++ ".ex".toList ++ ['e'] := by rw [List.append_assoc]; rfl
  rw [normalise, hlast, Text.infix_trimEnd_iff (· == '\n') (by decide), ← hlast,
    infix_dropEndings_iff h]
  simp only [applications, List.mem_cons, List.not_mem_nil, or_false] at h
  rcases h with rfl | rfl | rfl
  · exact infix_spaceDelays_iff (c := 'n') (w := "otepad.exe.exe") (by decide) (by decide) t
  · exact infix_spaceDelays_iff (c := 'c') (w := "md.exe.exe") (by decide) (by decide) t
  · exact infix_spaceDelays_iff (c := 'c') (w := "hrome.exe.exe") (by decide) (by decide) t

private theorem tidy_normalise_iff (t : Text) : Tidy (normalise t) ↔ Undoubled t := by
  have hnames : (∀ name ∈ applications, ¬ name ++ ending <:+: normalise t) ↔ Undoubled t :=
    forall₂_congr fun _ hname ↦ not_congr (infix_normalise_iff hname t)
  exact ⟨fun h ↦ hnames.mp h.bare,
    fun h ↦ ⟨not_hasTightDelay_normalise t, hnames.mpr h, getLast?_normalise_ne t⟩⟩

/-- The scripts that are left alone are those that need no change. -/
theorem normalise_eq_self_iff {t : Text} : normalise t = t ↔ Tidy t := by
  constructor
  · intro h
    have hspaced : ¬ HasTightDelay t := h ▸ not_hasTightDelay_normalise t
    refine ⟨hspaced, bare_of_length_le ?_, h ▸ getLast?_normalise_ne t⟩
    calc t.length = (normalise t).length := by rw [h]
      _ ≤ (dropEndings (spaceDelays t)).length := (List.rdropWhile_prefix _ _).length_le
      _ = (dropEndings t).length := by rw [spaceDelays_eq_self_iff.mpr hspaced]
  · intro h
    rw [normalise, spaceDelays_eq_self_iff.mpr h.spaced, dropEndings_eq_self h.bare,
      Text.trimEnd_eq_self_iff]
    intro c hc
    rw [beq_eq_false_iff_ne]
    rintro rfl
    exact h.ended hc

/-- In a script in which no name has its ending only blanks come in and line feeds go. -/
theorem normalise_of_bare {t : Text} (h : ∀ name ∈ applications, ¬ name ++ ending <:+: t) :
    normalise t = Text.trimEnd (· == '\n') (spaceDelays t) := by
  rw [normalise, dropEndings_eq_self]
  simp only [applications, List.forall_mem_cons] at h ⊢
  refine ⟨?_, ?_, ?_, List.forall_mem_nil _⟩
  · exact fun ho ↦ h.1 ((infix_spaceDelays_iff (w := "otepad.exe") (by decide) (by decide) t).mp ho)
  · exact fun ho ↦ h.2.1 ((infix_spaceDelays_iff (w := "md.exe") (by decide) (by decide) t).mp ho)
  · exact fun ho ↦
      h.2.2.1 ((infix_spaceDelays_iff (w := "hrome.exe") (by decide) (by decide) t).mp ho)

private theorem normalise_eq_nil_iff {t : Text} : normalise t = [] ↔ ∀ c ∈ t, c = '\n' := by
  rw [normalise, Text.trimEnd_eq_nil_iff, dropEndings_eq]
  simp only [beq_iff_eq]
  have hchrome := forall_mem_dropEnding_iff 'c' "hrome" (P := (· = '\n'))
    (by decide)
  have hcmd := forall_mem_dropEnding_iff 'c' "md" (P := (· = '\n')) (by decide)
  have hnotepad := forall_mem_dropEnding_iff 'n' "otepad" (P := (· = '\n'))
    (by decide)
  have hdelays := forall_mem_spaceDelays_iff (P := (· = '\n')) (by decide) t
  exact (hchrome _).trans ((hcmd _).trans ((hnotepad _).trans hdelays))

end Broker

/-! ### What is published -/

namespace Assistant

open Broker Service

/-- What is published for a request is the request with its script in normal form
(`fix_ducky_script_format`). That has a character exactly if the script has one besides line feeds,
and it needs no change exactly if no name in the script has its ending twice. For any script, the
normal form is left alone by putting it into normal form once more exactly if no name has its ending
twice, and it is empty exactly if there are only line feeds; the scripts that are left alone are
those that need no change. -/
theorem published_normal_iff {d d' : Desk} {request : Json}
    (h : publishScript request d = .ok true d') :
    (∃ script message, request.field? "script" = some (.text script) ∧ script ≠ [] ∧
      d'.sent = d.sent ++ [message] ∧ Carries request message.payload ∧
      d'.lastCommand = some (normalise script) ∧
      (normalise script ≠ [] ↔ ∃ c ∈ script, c ≠ '\n') ∧
      (Tidy (normalise script) ↔ Undoubled script)) ∧
    ∀ t, (normalise (normalise t) = normalise t ↔ Undoubled t) ∧
      (normalise t = [] ↔ ∀ c ∈ t, c = '\n') ∧ (normalise t = t ↔ Tidy t) := by
  refine ⟨?_, fun t ↦ ⟨normalise_eq_self_iff.trans (tidy_normalise_iff t), normalise_eq_nil_iff,
    normalise_eq_self_iff⟩⟩
  have hadmitted : Admitted d.settings d.lastCommand request ∧ d.brokerUp = true := by
    by_contra hno
    rw [publishScript_of_refused hno] at h
    cases h
  obtain ⟨normal, hnormal⟩ := hadmitted.1.exists_script
  rw [publishScript_of_admitted hadmitted.1 hnormal hadmitted.2] at h
  obtain ⟨script, hne, hfield, rfl⟩ := scriptOf?_eq_some_iff.mp hnormal
  cases h
  refine ⟨script, _, hfield, hne, rfl, carries_scriptMessage hnormal, rfl, ?_,
    tidy_normalise_iff script⟩
  rw [ne_eq, normalise_eq_nil_iff]
  simp

/-- A request to run a script under the password. -/
def underPassword (script : Text) : Json :=
  .object [("password", .text "E1s2t3e4r5"), ("script", .text script)]

private theorem publishScript_underPassword (script : Text) (h : script ≠ []) :
    ∃ d', publishScript (underPassword script) Desk.ready = .ok true d' ∧
      d'.lastCommand = some (normalise script) := by
  have hnormal : scriptOf? (underPassword script) = some (normalise script) :=
    scriptOf?_eq_some_iff.mpr ⟨script, h, rfl, rfl⟩
  have hadmitted : Admitted Desk.ready.settings Desk.ready.lastCommand (underPassword script) := by
    refine ⟨⟨_, by decide, rfl, rfl⟩, ⟨script, h, rfl⟩, .inr fun hlast ↦ ?_⟩
    rw [hnormal] at hlast
    cases hlast
  exact ⟨_, publishScript_of_admitted hadmitted hnormal rfl, rfl⟩

/-- A script that is put into normal form and then needs no change is published. -/
theorem published_normal_iff_launch : ∃ d', publishScript
    (underPassword "DELAY300\nSTRING notepad.exe\n") Desk.ready = .ok true d' ∧
      d'.lastCommand = some "DELAY 300\nSTRING notepad".toList ∧
      ∃ script, d'.lastCommand = some script ∧ script ≠ [] ∧ Tidy script := by
  obtain ⟨d', hpublish, hlast⟩ := publishScript_underPassword
    "DELAY300\nSTRING notepad.exe\n" (by decide)
  obtain ⟨⟨script, message, hscript, -, -, -, hlast', hne, htidy⟩, -⟩ :=
    published_normal_iff hpublish
  obtain rfl : "DELAY300\nSTRING notepad.exe\n".toList = script :=
    Json.text.inj (Option.some.inj hscript)
  refine ⟨d', hpublish, hlast.trans (by decide), _, hlast', hne.mpr ⟨'D', by decide, by decide⟩,
    htidy.mpr ?_⟩
  simp only [Undoubled, applications, List.forall_mem_cons]
  exact ⟨by decide, by decide, by decide, List.forall_mem_nil _⟩

/-- A name that has its ending twice is published with one, and a line feed as an empty script. -/
theorem doubled_ending_and_line_feed_published :
    (∃ d', publishScript (underPassword "STRING notepad.exe.exe") Desk.ready = .ok true d' ∧
      d'.lastCommand = some "STRING notepad.exe".toList ∧
      normalise "STRING notepad.exe" ≠ "STRING notepad.exe".toList) ∧
    ∃ d', publishScript (underPassword "\n") Desk.ready = .ok true d' ∧
      d'.lastCommand = some [] := by
  obtain ⟨d₁, hdoubled, hlast₁⟩ := publishScript_underPassword
    "STRING notepad.exe.exe" (by decide)
  obtain ⟨d₂, hfeed, hlast₂⟩ := publishScript_underPassword "\n" (by decide)
  exact ⟨⟨d₁, hdoubled, hlast₁.trans (by decide), by decide⟩,
    ⟨d₂, hfeed, hlast₂.trans (by decide)⟩⟩

end Assistant

end Deskhand
