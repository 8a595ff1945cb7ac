import Deskhand.Broker.Normal
import Mathlib.Data.List.Infix

/-!
# Blanks after `DELAY`

A script gets a blank wherever `DELAY` is directly followed by a digit. Afterwards there is no such
place, and a script without one is left alone. A word with neither blanks nor digits occurs where it
did before.
-/

namespace Deskhand

namespace Text

variable {c : Char} {w a b : Text}

/-- A word whose first character is missing in front occurs behind. -/
theorem infix_append_of_not_mem (h : c ∉ a) : c :: w <:+: a ++ b ↔ c :: w <:+: b := by
  induction a with
  | nil => rfl
  | cons d a ih =>
    rw [List.mem_cons, not_or] at h
    rw [List.cons_append, List.infix_cons_iff, List.cons_prefix_cons, ih h.2]
    exact or_iff_right fun hc ↦ h.1 hc.1

/-- A word that goes beyond a text continues behind it. -/
theorem prefix_append_iff (a b : Text) {w : Text} (hw : ¬ w <+: a) :
    w <+: a ++ b ↔ ∃ v, v ≠ [] ∧ w = a ++ v ∧ v <+: b := by
  constructor
  · intro h
    rcases List.prefix_or_prefix_of_prefix h (List.prefix_append a b) with hwa | ⟨v, rfl⟩
    · exact absurd hwa hw
    · refine ⟨v, ?_, rfl, (List.prefix_append_right_inj a).mp h⟩
      rintro rfl
      exact hw ⟨[], by simp⟩
  · rintro ⟨v, -, rfl, hv⟩
    exact (List.prefix_append_right_inj a).mpr hv

end Text

namespace Broker

/-- The word that a blank is put after. -/
def delayWord : Text := "DELAY"

/-- Somewhere in a text `DELAY` is directly followed by a digit. -/
def HasTightDelay (t : Text) : Prop := ∃ d, Text.isDecimal d = true ∧ delayWord ++ [d] <:+: t

private theorem isDecimal_space : Text.isDecimal ' ' = false := by decide

/-- A text begins with a digit exactly if it gets a blank. -/
theorem gap_of_isDecimal {d : Char} (h : Text.isDecimal d = true) (t : Text) :
    gap (d :: t) = [' '] := by simp [gap, h]

/-- Before anything else than a digit there is no blank. -/
theorem gap_of_head? {t : Text} (h : ∀ d ∈ t.head?, Text.isDecimal d = false) : gap t = [] := by
  cases t with
  | nil => rfl
  | cons d t => simp [gap, h d rfl]

/-- After `DELAY` a blank may come in. -/
theorem spaceDelays_delay (t : Text) :
    spaceDelays (delayWord ++ t) = delayWord ++ (gap t ++ spaceDelays t) := by
  change "DELAY".toList ++ gap t ++ spaceDelays t = _
  rw [List.append_assoc]
  rfl

/-- Where there is no `DELAY`, nothing comes in. -/
theorem spaceDelays_cons {c : Char} {t : Text} (h : ¬ delayWord <+: c :: t) :
    spaceDelays (c :: t) = c :: spaceDelays t := by
  refine spaceDelays.eq_2 c t fun rest hc ht ↦ h ?_
  rw [hc, ht]
  exact List.prefix_append delayWord rest

/-- Texts are gone through from left to right, `DELAY` counting as one step. -/
theorem delay_induction {P : Text → Prop} (nil : P []) (delay : ∀ t, P t → P (delayWord ++ t))
    (cons : ∀ c t, ¬ delayWord <+: c :: t → P t → P (c :: t)) (t : Text) : P t := by
  induction t using spaceDelays.induct with
  | case1 rest ih => exact delay rest ih
  | case2 c rest h ih =>
    refine cons c rest ?_ ih
    rintro ⟨more, hmore⟩
    obtain ⟨rfl, rfl⟩ := List.cons.inj hmore
    exact h more rfl rfl
  | case3 => exact nil

/-! ### Words without blanks and digits -/

/-- Characters other than blanks and digits. -/
def isPlain (c : Char) : Bool := c != ' ' && !Text.isDecimal c

section Plain

variable {w : Text} (hw : ∀ c ∈ w, isPlain c = true)

include hw

/-- Neither a blank that comes in nor a digit behind it belongs to a plain word. -/
theorem prefix_gap_iff {t s : Text} (hne : w ≠ []) (ih : w <+: s ↔ w <+: t) :
    w <+: gap t ++ s ↔ w <+: t := by
  obtain ⟨c, v, rfl⟩ := List.exists_cons_of_ne_nil hne
  have hc := hw c List.mem_cons_self
  rw [isPlain, Bool.and_eq_true, bne_iff_ne, Bool.not_eq_true'] at hc
  cases t with
  | nil => exact ih
  | cons d t =>
    cases hd : Text.isDecimal d with
    | false => rw [gap_of_head? (by simpa using hd), List.nil_append, ih]
    | true =>
      rw [gap_of_isDecimal hd, List.singleton_append, List.cons_prefix_cons, List.cons_prefix_cons]
      refine iff_of_false (fun h ↦ hc.1 h.1) fun h ↦ ?_
      rw [h.1, hd] at hc
      cases hc.2

/-- A script begins with a plain word as it did before. -/
theorem prefix_spaceDelays_iff (t : Text) : w <+: spaceDelays t ↔ w <+: t := by
  induction t using delay_induction generalizing w with
  | nil => rfl
  | delay t ih =>
    rw [spaceDelays_delay]
    by_cases hshort : w <+: delayWord
    · exact iff_of_true (hshort.trans (List.prefix_append _ _))
        (hshort.trans (List.prefix_append _ _))
    · rw [Text.prefix_append_iff _ _ hshort, Text.prefix_append_iff _ _ hshort]
      refine exists_congr fun v ↦ and_congr_right fun hne ↦ and_congr_right fun hv ↦ ?_
      have hplain : ∀ c ∈ v, isPlain c = true := fun c hc ↦ hw c (by simp [hv, hc])
      exact prefix_gap_iff hplain hne (ih hplain)
  | cons c t hno ih =>
    rw [spaceDelays_cons hno]
    cases w with
    | nil => simp
    | cons d v =>
      rw [List.cons_prefix_cons, List.cons_prefix_cons,
        ih fun c hc ↦ hw c (List.mem_cons_of_mem d hc)]

end Plain

/-- A plain word occurs in a script as it did before, if no end of `DELAY` is a beginning of it. -/
theorem infix_spaceDelays_iff {c : Char} {w : Text} (hw : (c :: w).all isPlain = true)
    (hc : c ∉ delayWord) (t : Text) : c :: w <:+: spaceDelays t ↔ c :: w <:+: t := by
  rw [List.all_eq_true] at hw
  have hspace : ∀ t : Text, c ∉ gap t := by
    intro t hmem
    have hblank : c = ' ' := by
      unfold gap at hmem
      split at hmem
      · exact List.mem_singleton.mp hmem
      · cases hmem
    subst hblank
    exact absurd (hw ' ' List.mem_cons_self) (by decide)
  induction t using delay_induction with
  | nil => rfl
  | delay t ih =>
    rw [spaceDelays_delay, Text.infix_append_of_not_mem hc, Text.infix_append_of_not_mem (hspace t),
      Text.infix_append_of_not_mem hc]
    exact ih
  | cons d t hno ih =>
    have hstart := prefix_spaceDelays_iff hw (d :: t)
    rw [spaceDelays_cons hno] at hstart ⊢
    rw [List.infix_cons_iff, List.infix_cons_iff]
    exact or_congr hstart ih

/-! ### Digits after `DELAY` -/

private theorem head?_spaceDelays (t : Text) : (spaceDelays t).head? = t.head? := by
  cases t using delay_induction with
  | nil => rfl
  | delay t => rw [spaceDelays_delay]; rfl
  | cons c t hno => rw [spaceDelays_cons hno]; rfl

/-- Afterwards no `DELAY` is directly followed by a digit. -/
theorem not_hasTightDelay_spaceDelays (t : Text) : ¬ HasTightDelay (spaceDelays t) := by
  rintro ⟨d, hd, hoccurs⟩
  have hplain : ∀ c ∈ delayWord, isPlain c = true := List.all_eq_true.mp (by decide)
  induction t using delay_induction with
  | nil => exact absurd (List.infix_nil.mp hoccurs) (List.cons_ne_nil _ _)
  | delay t ih =>
    -- it does not begin with this `DELAY`, so it begins behind it
    have hstart : ¬ delayWord ++ [d] <+: delayWord ++ (gap t ++ spaceDelays t) := by
      rw [List.prefix_append_right_inj]
      intro h
      have hhead : (gap t ++ spaceDelays t).head? = some d := by
        obtain ⟨rest, hrest⟩ := h
        rw [← hrest]
        rfl
      cases t with
      | nil => cases hhead
      | cons e t =>
        cases he : Text.isDecimal e with
        | true =>
          rw [gap_of_isDecimal he] at hhead
          rw [← Option.some.inj hhead, isDecimal_space] at hd
          cases hd
        | false =>
          rw [gap_of_head? (by simpa using he), List.nil_append, head?_spaceDelays] at hhead
          rw [← Option.some.inj hhead, he] at hd
          cases hd
    have hgap : 'D' ∉ gap t := by
      unfold gap
      split <;> decide
    rw [spaceDelays_delay] at hoccurs
    rcases List.infix_cons_iff.mp hoccurs with hoccurs | hoccurs
    · exact hstart hoccurs
    · have hbehind : 'D' :: ("ELAY".toList ++ [d]) <:+: "ELAY".toList ++ (gap t ++ spaceDelays t) :=
        hoccurs
      rw [Text.infix_append_of_not_mem (by decide), Text.infix_append_of_not_mem hgap] at hbehind
      exact ih hbehind
  | cons c t hno ih =>
    rw [spaceDelays_cons hno] at hoccurs
    rcases List.infix_cons_iff.mp hoccurs with hoccurs | hoccurs
    · rw [← spaceDelays_cons hno] at hoccurs
      have hword := (List.prefix_append delayWord [d]).trans hoccurs
      exact hno ((prefix_spaceDelays_iff hplain _).mp hword)
    · exact ih hoccurs

/-- A script is left alone exactly if no `DELAY` in it is directly followed by a digit. -/
theorem spaceDelays_eq_self_iff {t : Text} : spaceDelays t = t ↔ ¬ HasTightDelay t := by
  constructor
  · intro h
    rw [← h]
    exact not_hasTightDelay_spaceDelays t
  · intro h
    induction t using delay_induction with
    | nil => rfl
    | delay t ih =>
      have hgap : gap t = [] := by
        refine gap_of_head? fun d hd ↦ ?_
        by_contra hdigit
        rw [Bool.not_eq_false] at hdigit
        obtain ⟨rest, rfl⟩ := List.head?_eq_some_iff.mp hd
        exact h ⟨d, hdigit, ⟨[], rest, by simp⟩⟩
      have hrest : ¬ HasTightDelay t := fun ⟨d, hd, hoccurs⟩ ↦
        h ⟨d, hd, hoccurs.trans (List.suffix_append _ _).isInfix⟩
      rw [spaceDelays_delay, hgap, List.nil_append, ih hrest]
    | cons c t hno ih =>
      have hrest : ¬ HasTightDelay t := fun ⟨d, hd, hoccurs⟩ ↦
        h ⟨d, hd, hoccurs.trans (List.suffix_cons c t).isInfix⟩
      rw [spaceDelays_cons hno, ih hrest]

/-- If a property that `D` lacks holds of all characters before, it does so afterwards. -/
theorem forall_mem_spaceDelays_iff {P : Char → Prop} (hP : ¬ P 'D') (t : Text) :
    (∀ c ∈ spaceDelays t, P c) ↔ ∀ c ∈ t, P c := by
  induction t using delay_induction with
  | nil => rfl
  | delay t _ =>
    rw [spaceDelays_delay]
    exact iff_of_false (fun h ↦ hP (h 'D' List.mem_cons_self))
      fun h ↦ hP (h 'D' List.mem_cons_self)
  | cons c t hno ih =>
    rw [spaceDelays_cons hno, List.forall_mem_cons, List.forall_mem_cons]
    exact and_congr_right fun _ ↦ ih

end Broker

end Deskhand
