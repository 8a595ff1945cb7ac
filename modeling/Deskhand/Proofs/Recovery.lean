import Deskhand.Proofs.Editing
import Deskhand.Proofs.JsonReading
import Deskhand.Proofs.JsonText
import Deskhand.Reply.Answer

/-!
# Wrapped JSON is recovered

A reply may hold its JSON alone, in a code block between other words, or right between other words.
In each case the value is found that the JSON itself stands for. A code block is never mistaken for
the reply's own JSON and ends where the JSON does, since a line end and a backtick have a quote
between them in whatever is read as JSON.
-/

namespace Deskhand

namespace Text

variable {part before : Text}

/-! ### First occurrences -/

/-- No end of the text, other than the whole, is a beginning of it. -/
def Unbordered (part : Text) : Prop := ∀ i < part.length, 0 < i → ¬ part.drop i <+: part

/-- A part has no position exactly where it does not occur. -/
theorem position?_eq_none_iff (hne : part ≠ []) : position? part t = none ↔ ¬ part <:+: t := by
  unfold position?
  generalize 0 = offset
  induction t generalizing offset with
  | nil =>
    rw [findFrom, if_neg (by simpa using hne)]
    simpa using hne
  | cons c t ih =>
    rw [findFrom, List.infix_cons_iff, ← List.isPrefixOf_iff_prefix]
    by_cases hstart : part.isPrefixOf (c :: t) = true
    · simp [hstart]
    · simp [hstart, ih]

/-- An unbordered part cannot begin in front of itself without standing there whole. -/
theorem not_prefix_of_unbordered (hu : Unbordered part) (hne : before ≠ [])
    (h : ¬ part <:+: before) (after : Text) : ¬ part <+: before ++ (part ++ after) := by
  intro hpre
  by_cases hle : part.length ≤ before.length
  · exact h (List.prefix_of_prefix_length_le hpre (List.prefix_append _ _) hle).isInfix
  · -- what reaches into the part itself is a border of it
    have hstart : before <+: part :=
      List.prefix_of_prefix_length_le (List.prefix_append _ _) hpre (by omega)
    obtain ⟨border, hborder⟩ := hstart
    have hdrop : part.drop before.length = border := by rw [← hborder, List.drop_left]
    have hlength : before.length + border.length = part.length := by
      rw [← hborder, List.length_append]
    have hpos : 0 < before.length := List.length_pos_iff.mpr hne
    have hinside : border <+: part ++ after := by
      obtain ⟨tail, htail⟩ := hpre
      have heq : before ++ (border ++ tail) = before ++ (part ++ after) := by
        rw [← List.append_assoc, hborder, htail]
      exact ⟨tail, List.append_cancel_left heq⟩
    refine hu before.length (by omega) hpos ?_
    rw [hdrop]
    exact List.prefix_of_prefix_length_le hinside (List.prefix_append _ _) (by omega)

/-- An unbordered part that does not occur in what is in front of it first occurs where it stands.
-/
theorem position?_append (hu : Unbordered part) (hne : part ≠ []) (h : ¬ part <:+: before)
    (after : Text) : position? part (before ++ (part ++ after)) = some before.length := by
  unfold position?
  suffices hfind : ∀ offset, findFrom part offset (before ++ (part ++ after)) =
      some (offset + before.length) by
    simpa using hfind 0
  induction before with
  | nil =>
    intro offset
    obtain ⟨c, tail, rfl⟩ := List.exists_cons_of_ne_nil hne
    exact if_pos (List.isPrefixOf_iff_prefix.mpr (List.prefix_append (c :: tail) after))
  | cons c before ih =>
    intro offset
    have hstart := not_prefix_of_unbordered hu (List.cons_ne_nil c before) h after
    rw [List.cons_append] at hstart ⊢
    rw [findFrom, if_neg fun hpre ↦ hstart (List.isPrefixOf_iff_prefix.mp hpre),
      ih fun hoccurs ↦ h (hoccurs.trans (List.suffix_cons c before).isInfix), List.length_cons,
      Nat.add_right_comm, Nat.add_assoc]

end Text

namespace Reply

open Json (WithinLimit isFlawed isFlawed_iff)
open Text (Unbordered)

variable {opening closing inner before after t : Text}

/-- What stands between marks is found there, if neither mark occurs earlier. -/
theorem between?_append (hopening : Unbordered opening) (hclosing : Unbordered closing)
    (hne : opening ≠ []) (hne' : closing ≠ []) (hbefore : ¬ opening <:+: before)
    (hinner : ¬ closing <:+: inner) (after : Text) :
    between? opening closing (before ++ (opening ++ (inner ++ (closing ++ after)))) =
      some inner := by
  have hfirst := Text.position?_append hopening hne hbefore (inner ++ (closing ++ after))
  have hsecond := Text.position?_append hclosing hne' hinner after
  have hrest : (before ++ (opening ++ (inner ++ (closing ++ after)))).drop
      (before.length + opening.length) = inner ++ (closing ++ after) := by
    rw [← List.append_assoc, ← List.length_append, List.drop_left]
  unfold between?
  rw [hfirst]
  dsimp only
  rw [hrest, hsecond, Option.map_some, List.take_left]

private theorem between?_of_not_infix (hne : opening ≠ []) (h : ¬ opening <:+: t) (closing : Text) :
    between? opening closing t = none := by
  unfold between?
  rw [(Text.position?_eq_none_iff hne).mpr h]

private theorem dropWhile_ne_append {c : Char} (h : c ∉ before) (rest : Text) :
    (before ++ c :: rest).dropWhile (· != c) = c :: rest := by
  rw [List.dropWhile_append_of_pos, List.dropWhile_cons_of_neg (by simp)]
  intro d hd
  have hne : d ≠ c := fun he ↦ h (he ▸ hd)
  simpa using hne

/-- What stands between braces is found, if there are no braces around it. -/
theorem braced?_append (hbefore : '\x7b' ∉ before) (hafter : '\x7d' ∉ after)
    (hfirst : ∃ rest, t = '\x7b' :: rest) (hlast : ∃ rest, t = rest ++ ['\x7d']) :
    braced? (before ++ t ++ after) = some t := by
  have hopen : (before ++ t ++ after).dropWhile (· != '\x7b') = t ++ after := by
    obtain ⟨rest, rfl⟩ := hfirst
    rw [List.append_assoc]
    exact dropWhile_ne_append hbefore (rest ++ after)
  have hclose : (t ++ after).reverse.dropWhile (· != '\x7d') = t.reverse := by
    obtain ⟨rest, rfl⟩ := hlast
    rw [List.reverse_append, List.reverse_append]
    exact dropWhile_ne_append (by simpa using hafter) rest.reverse
  have hne : t.isEmpty = false := by
    obtain ⟨rest, rfl⟩ := hfirst
    rfl
  unfold braced?
  dsimp only
  rw [hopen, hclose, List.reverse_reverse, hne, if_neg Bool.false_ne_true]

private theorem isBlank_of_isGap {c : Char} (h : Json.isGap c = true) : Text.isBlank c = true := by
  simp only [Json.isGap, Bool.or_eq_true, beq_iff_eq] at h
  obtain ((rfl | rfl) | rfl) | rfl := h <;> decide +kernel

/-- A text without blanks around it that is read as an object stands between braces. -/
theorem braces_of_read {fields : List (Text × Json)} (h : Json.read t = .ok (.object fields))
    (htrim : Text.trim t = t) :
    (∃ rest, t = '\x7b' :: rest) ∧ ∃ rest, t = rest ++ ['\x7d'] := by
  obtain ⟨hfirst, hlast⟩ := Text.ends_of_trim_eq_self htrim
  obtain ⟨fuel, rest, hvalue, hend⟩ := Json.exists_value_of_read h
  obtain ⟨inner, hinner⟩ := Json.brace_of_object hvalue
  have hgap : Json.skipGap t = t := by
    cases t with
    | nil => rfl
    | cons c t =>
      refine List.dropWhile_cons_of_neg fun hc ↦ ?_
      exact absurd (isBlank_of_isGap hc) (by simp [hfirst c rfl])
  rw [hgap] at hinner hvalue
  -- a blank after the value would be a blank at the end
  have hrest : rest = [] := by
    have hall : ∀ c ∈ rest, Json.isGap c = true := List.dropWhile_eq_nil_iff.mp hend
    obtain ⟨before, hbefore⟩ := ((Json.leavesWithin fuel).value hvalue).suffix
    obtain hnil | ⟨body, c, hbody⟩ := List.eq_nil_or_concat rest
    · exact hnil
    · have hc : t.getLast? = some c := by simp [← hbefore, hbody]
      exact absurd (isBlank_of_isGap (hall c (by simp [hbody]))) (by simp [hlast c hc])
  refine ⟨⟨inner, hinner⟩, ?_⟩
  rw [hinner] at hvalue
  have hsuffix := (Json.object_of_brace hvalue).2.suffix
  rw [← hinner, hrest] at hsuffix
  obtain ⟨body, hbody⟩ := hsuffix
  exact ⟨body, hbody.symm⟩

/-- A code block's beginning does not occur in what is read as JSON. -/
theorem not_infix_of_read {v : Json} (h : Json.read t = .ok v) :
    ¬ "```json\n".toList <:+: t ∧ ¬ "\n```".toList <:+: t := by
  have hleaves := Json.leaves_of_read h
  constructor
  · rintro ⟨before, after, rfl⟩
    have hquote := hleaves.quote_mem_tick_newline (before ++ ['\x60', '\x60']) "json".toList after
      (by simp)
    exact absurd hquote (by decide)
  · rintro ⟨before, after, rfl⟩
    have hquote := hleaves.quote_mem_newline_tick before [] ('\x60' :: '\x60' :: after) (by simp)
    exact absurd hquote (by decide)

/-- The first place where a reply may hold its answer decides, if the reply itself is flawed and
that place holds JSON. -/
theorem extract_of_places {reply : Text} {rest : List Text} {v : Json}
    (hflaw : isFlawed reply = true) (hplaces : places reply = t :: rest)
    (hread : Json.read t = .ok v) : extract reply = .ok v := by
  unfold isFlawed at hflaw
  split at hflaw
  · next hreply =>
    rw [extract, hplaces, firstJson?, hreply]
    dsimp only
    rw [firstJson?, hread]
    rfl
  · cases hflaw

/-- The text in a code block, between other texts. -/
def fenced (before t after : Text) : Text :=
  before ++ ("```json\n".toList ++ (t ++ ("\n```".toList ++ after)))

/-- JSON in a code block is the first place looked at. -/
theorem places_fenced {v : Json} (hread : Json.read t = .ok v) (htrim : Text.trim t = t)
    (hbefore : ¬ "```json\n".toList <:+: before) (after : Text) :
    ∃ rest, places (fenced before t after) = t :: rest := by
  have hopening : Unbordered "```json\n".toList := by
    unfold Unbordered
    decide
  have hclosing : Unbordered "\n```".toList := by
    unfold Unbordered
    decide
  have hfirst : between? "```json\n" "\n```" (fenced before t after) = some t :=
    between?_append hopening hclosing (by decide) (by decide) hbefore (not_infix_of_read hread).2
      after
  rw [places, List.filterMap_cons, hfirst, Option.map_some, htrim]
  exact ⟨_, rfl⟩

private theorem read_fenced_ne_ok (before t after : Text) (v : Json) :
    Json.read (fenced before t after) ≠ .ok v := by
  intro h
  refine (not_infix_of_read h).1 ⟨before, t ++ ("\n```".toList ++ after), ?_⟩
  rw [fenced, List.append_assoc]

/-- An object between texts without braces is the only place looked at, if there is no code block.
-/
theorem places_of_object {fields : List (Text × Json)} (hread : Json.read t = .ok (.object fields))
    (htrim : Text.trim t = t) (hbefore : '\x7b' ∉ before) (hafter : '\x7d' ∉ after)
    (hfence : ¬ "```".toList <:+: before ++ t ++ after) : places (before ++ t ++ after) = [t] := by
  obtain ⟨hopen, hclose⟩ := braces_of_read hread htrim
  have hnone (opening : Text) (hne : opening ≠ []) (hpre : "```".toList <+: opening) :
      between? opening "\n```" (before ++ t ++ after) = none :=
    between?_of_not_infix hne (fun h ↦ hfence (hpre.isInfix.trans h)) _
  rw [places, List.filterMap_cons, hnone "```json\n" (by decide) (by decide), Option.map_none,
    List.filterMap_cons, hnone "```\n" (by decide) (by decide), Option.map_none,
    List.filterMap_cons, braced?_append hbefore hafter hopen hclose, Option.map_some, htrim]
  rfl

/-- Wrapped JSON is recovered (`extract_json_from_llm_response`). A text without blanks around it
that is read as a value is found in the reply that consists of it alone; in a code block after any
words without the beginning of one and before any words at all; and, if it is an object, between
words without braces in a reply that has no code block and is not JSON itself. The limit on the
digits of an integer is left aside: it may stop the reading of the reply as a whole. -/
theorem extract_wrapped (t : Text) (v : Json) (hread : Json.read t = .ok v)
    (htrim : Text.trim t = t) :
    extract t = .ok v ∧
    (∀ before after, ¬ "```json\n".toList <:+: before → WithinLimit (fenced before t after) →
      extract (fenced before t after) = .ok v) ∧
    (∀ fields, v = .object fields → ∀ before after : Text,
      '\x7b' ∉ before ∧ '\x7d' ∉ before → '\x7b' ∉ after ∧ '\x7d' ∉ after →
      ¬ "```".toList <:+: before ++ t ++ after →
      (∀ w, Json.read (before ++ t ++ after) ≠ .ok w) → WithinLimit (before ++ t ++ after) →
      extract (before ++ t ++ after) = .ok v) := by
  refine ⟨?_, ?_, ?_⟩
  · rw [extract, firstJson?, hread]
    rfl
  · intro before after hbefore hlimit
    have hflaw := isFlawed_iff.mpr ⟨read_fenced_ne_ok before t after, hlimit⟩
    obtain ⟨rest, hplaces⟩ := places_fenced hread htrim hbefore after
    exact extract_of_places hflaw hplaces hread
  · rintro fields rfl before after hbefore hafter hfence hno hlimit
    have hflaw := isFlawed_iff.mpr ⟨hno, hlimit⟩
    have hplaces := places_of_object hread htrim hbefore.1 hafter.2 hfence
    exact extract_of_places hflaw hplaces hread

/-- An object with a closing brace inside it, as it is written. -/
def bracedText : Text := Json.write (.object [("a".toList, .text "\x7d".toList)])

/-- An object with a brace in a string is recovered from a code block after another one, and from a
sentence. -/
theorem extract_wrapped_brace :
    Json.read bracedText = .ok (.object [("a".toList, .text "\x7d".toList)]) ∧
    extract (fenced "```\n1\n```\n".toList bracedText " \x7d".toList) =
      .ok (.object [("a".toList, .text "\x7d".toList)]) ∧
    extract ("It is ".toList ++ bracedText ++ ".".toList) =
      .ok (.object [("a".toList, .text "\x7d".toList)]) := by
  have hread : Json.read bracedText = .ok (.object [("a".toList, .text "\x7d".toList)]) :=
    Json.read_write_field _ _
  have h := extract_wrapped bracedText _ hread (by decide +kernel)
  have hfirst : isFlawed (fenced "```\n1\n```\n".toList bracedText " \x7d".toList) = true := by
    decide +kernel
  have hsecond : isFlawed ("It is ".toList ++ bracedText ++ ".".toList) = true := by
    decide +kernel
  refine ⟨hread, h.2.1 _ _ ?_ (isFlawed_iff.mp hfirst).2, ?_⟩
  · exact (Text.position?_eq_none_iff (by decide)).mp (by decide +kernel)
  · refine h.2.2 _ rfl _ _ (by decide) (by decide) ?_ (isFlawed_iff.mp hsecond).1
      (isFlawed_iff.mp hsecond).2
    exact (Text.position?_eq_none_iff (by decide)).mp (by decide +kernel)

end Reply

end Deskhand
