import Deskhand.Json.Reader
import Mathlib.Data.List.TakeDrop
import Mathlib.Data.List.TakeWhile

/-!
# What reading JSON passes over

Whatever is read as JSON consists of strings and of characters outside strings. No string has a line
end between its quotes, and outside strings there is no backtick. So a line end and a backtick never
stand in one text without a quote between them. What is read as an object stands between braces.
-/

namespace Deskhand

variable {α β ε : Type}

/-- A result that was changed comes from a result. -/
theorem exists_of_map_eq_ok {f : α → β} {r : Except ε α} {b : β} (h : r.map f = .ok b) :
    ∃ a, r = .ok a ∧ f a = b := by
  cases r with
  | error e => cases h
  | ok a => exact ⟨a, rfl, Except.ok.inj h⟩

/-- A result in two steps comes from the result of the first one. -/
theorem exists_of_bind_eq_ok {f : α → Except ε β} {r : Except ε α} {b : β}
    (h : (r >>= f) = .ok b) : ∃ a, r = .ok a ∧ f a = .ok b := by
  cases r with
  | error e => cases h
  | ok a => exact ⟨a, rfl, h⟩

/-- A text that begins with `start` is `start` and what follows it. -/
theorem Text.eq_append_of_after? {start t rest : Text} (h : after? start t = some rest) :
    t = start ++ rest := by
  unfold after? at h
  split at h
  · next hstart =>
    cases h
    exact (List.prefix_iff_eq_append.mp (List.isPrefixOf_iff_prefix.mp hstart)).symm
  · cases h

namespace Json

/-- A character that may stand outside strings. -/
def Plain (c : Char) : Prop := c ≠ '"' ∧ c ≠ '\x60'
  deriving Decidable

/-- Passing over whole strings and plain characters of a text leaves `rest`. -/
inductive Leaves (rest : Text) : Text → Prop where
  | refl : Leaves rest rest
  | plain {c : Char} {t : Text} (hc : Plain c) (h : Leaves rest t) : Leaves rest (c :: t)
  | string {body t : Text} (hbody : '\n' ∉ body) (h : Leaves rest t) :
    Leaves rest ('"' :: (body ++ '"' :: t))

/-- Two characters that differ, each with its surroundings, in one text: either one comes first. -/
theorem append_cons_cases {c d : Char} (hne : d ≠ c) {s t before after : Text}
    (h : s ++ c :: t = before ++ d :: after) :
    (∃ more, s = before ++ d :: more ∧ after = more ++ c :: t) ∨
      ∃ more, before = s ++ c :: more ∧ t = more ++ d :: after := by
  obtain ⟨more, hmore, htail⟩ | ⟨more, hmore, htail⟩ := List.append_eq_append_iff.mp h
  · cases more with
    | nil => exact absurd (List.cons.inj htail).1.symm hne
    | cons x more =>
      obtain ⟨rfl, rfl⟩ := List.cons.inj htail
      exact .inr ⟨more, hmore, rfl⟩
  · cases more with
    | nil => exact absurd (List.cons.inj htail).1 hne
    | cons x more =>
      obtain ⟨rfl, rfl⟩ := List.cons.inj htail
      exact .inl ⟨more, hmore, rfl⟩

namespace Leaves

variable {t u rest : Text}

/-- What is left may be passed over in turn. -/
theorem trans (h : Leaves u t) (h' : Leaves rest u) : Leaves rest t := by
  induction h with
  | refl => exact h'
  | plain hc _ ih => exact plain hc ih
  | string hbody _ ih => exact string hbody ih

/-- Plain characters are passed over. -/
theorem append (used : Text) (h : ∀ c ∈ used, Plain c) : Leaves rest (used ++ rest) := by
  induction used with
  | nil => exact refl
  | cons c used ih =>
    obtain ⟨hc, hused⟩ := List.forall_mem_cons.mp h
    exact plain hc (ih hused)

/-- A run of plain characters at the start is passed over. -/
theorem dropWhile {p : Char → Bool} (hp : ∀ c, p c = true → Plain c) (t : Text) :
    Leaves (t.dropWhile p) t := by
  have h : Leaves (t.dropWhile p) (t.takeWhile p ++ t.dropWhile p) :=
    append _ fun c hc ↦ hp c (List.mem_takeWhile_imp hc)
  rwa [List.takeWhile_append_dropWhile] at h

/-- What is left stands at the end. -/
theorem suffix (h : Leaves rest t) : rest <:+ t := by
  induction h with
  | refl => exact List.suffix_refl rest
  | plain _ _ ih => exact ih.trans (List.suffix_cons _ _)
  | @string body t _ _ ih => exact ih.trans ⟨'"' :: (body ++ ['"']), by simp⟩

/-- In front of the first backtick there is a quote. -/
theorem quote_mem_before_tick (h : Leaves [] t) {between after : Text}
    (ht : t = between ++ '\x60' :: after) : '"' ∈ between := by
  induction h generalizing between with
  | refl => simp at ht
  | plain hc _ ih =>
    cases between with
    | nil => exact absurd (List.cons.inj ht).1 hc.2
    | cons d between => exact List.mem_cons_of_mem _ (ih (List.cons.inj ht).2)
  | string _ _ _ =>
    cases between with
    | nil => exact absurd (List.cons.inj ht).1 (by decide)
    | cons d between => exact (List.cons.inj ht).1 ▸ List.mem_cons_self

/-- Between a line end and a backtick after it there is a quote. -/
theorem quote_mem_newline_tick (h : Leaves [] t) (before between after : Text)
    (ht : t = before ++ '\n' :: (between ++ '\x60' :: after)) : '"' ∈ between := by
  induction h generalizing before with
  | refl => simp at ht
  | plain hc hrest ih =>
    cases before with
    | nil => exact hrest.quote_mem_before_tick (List.cons.inj ht).2
    | cons d before => exact ih before (List.cons.inj ht).2
  | @string body t hbody hrest ih =>
    -- the line end cannot stand in the string, so it stands after it
    rw [← List.cons_append] at ht
    obtain ⟨more, hmore, -⟩ | ⟨more, -, htail⟩ := append_cons_cases (by decide) ht
    · have hmem : '\n' ∈ '"' :: body := by simp [hmore]
      exact absurd hmem (by simpa using hbody)
    · exact ih more htail

/-- Between a backtick and a line end after it there is a quote. -/
theorem quote_mem_tick_newline (h : Leaves [] t) (before between after : Text)
    (ht : t = before ++ '\x60' :: (between ++ '\n' :: after)) : '"' ∈ between := by
  induction h generalizing before with
  | refl => simp at ht
  | plain hc hrest ih =>
    cases before with
    | nil => exact absurd (List.cons.inj ht).1 hc.2
    | cons d before => exact ih before (List.cons.inj ht).2
  | @string body t hbody hrest ih =>
    rw [← List.cons_append] at ht
    obtain ⟨more, hmore, hclose⟩ | ⟨more, -, htail⟩ := append_cons_cases (by decide) ht
    · -- the backtick stands in the string, which is closed before the line ends
      obtain ⟨gap, hgap, -⟩ | ⟨gap, hgap, -⟩ := append_cons_cases (by decide) hclose.symm
      · have hmem : '\n' ∈ '"' :: body := by simp [hmore, hgap]
        exact absurd hmem (by simpa using hbody)
      · simp [hgap]
    · exact ih more htail

end Leaves

/-! ### Strings -/

private theorem newline_not_mem_of_unit? {a b c d : Char} {n : Nat} (h : unit? a b c d = some n) :
    '\n' ∉ [a, b, c, d] := by
  intro hmem
  have hnone : hexDigit? '\n' = none := by decide
  unfold unit? at h
  split at h
  · next ha hb hc hd =>
    simp only [List.mem_cons, List.not_mem_nil, or_false] at hmem
    obtain rfl | rfl | rfl | rfl := hmem <;> simp_all
  · cases h

private theorem exists_of_lowHalf? {t : Text} {low : Nat} (h : lowHalf? t = some low) :
    ∃ a b c d more, t = '\\' :: 'u' :: a :: b :: c :: d :: more ∧ unit? a b c d = some low := by
  unfold lowHalf? at h
  split at h
  · next a b c d next after =>
    exact ⟨a, b, c, d, next :: after, rfl, (Option.filter_eq_some_iff.mp h).1⟩
  · cases h

private theorem newline_not_mem_of_drop {taken more body after : Text}
    (ht : taken ++ more = body ++ '"' :: after) (hle : taken.length ≤ body.length)
    (hdrop : '\n' ∉ body.drop taken.length) (htaken : '\n' ∉ taken) : '\n' ∉ body := by
  have htake : body.take taken.length = taken := by
    have hfirst : (body ++ '"' :: after).take taken.length = body.take taken.length :=
      List.take_append_of_le_length hle
    rw [← hfirst, ← ht, List.take_left]
  rw [← List.take_append_drop taken.length body, htake, List.mem_append]
  exact not_or.mpr ⟨htaken, hdrop⟩

/-- A string ends at a quote, and there is no line end before it, from where its characters are
looked at. -/
theorem exists_body_of_stringFrom {start : Text} {skip : Nat} {t s rest : Text}
    (h : stringFrom start skip t = .ok (s, rest)) :
    ∃ body, t = body ++ '"' :: rest ∧ skip ≤ body.length ∧ '\n' ∉ body.drop skip := by
  have hescape (taken : Text) {more : Text} {c : Char} (hc : c ≠ '\n') (htaken : '\n' ∉ taken)
      (hbody : ∃ body, taken ++ more = body ++ '"' :: rest ∧ taken.length ≤ body.length ∧
        '\n' ∉ body.drop taken.length) :
      ∃ body, c :: (taken ++ more) = body ++ '"' :: rest ∧ 0 ≤ body.length ∧
        '\n' ∉ body.drop 0 := by
    obtain ⟨body, heq, hle, hdrop⟩ := hbody
    have hnot := newline_not_mem_of_drop heq hle hdrop htaken
    refine ⟨c :: body, by rw [heq]; rfl, Nat.zero_le _, ?_⟩
    simpa [hnot] using hc.symm
  have hread {c : Char} {r : Except Stop (Text × Text)} {s : Text}
      (h : (r.map fun p ↦ (c :: p.1, p.2)) = .ok (s, rest)) : ∃ s', r = .ok (s', rest) := by
    obtain ⟨⟨s', rest'⟩, hr, heq⟩ := exists_of_map_eq_ok h
    cases heq
    exact ⟨s', hr⟩
  fun_induction stringFrom start skip t generalizing s
  case case1 => cases h
  case case2 skip c rest' ih =>
    obtain ⟨body, rfl, hle, hdrop⟩ := ih h
    exact ⟨c :: body, rfl, Nat.succ_le_succ hle, hdrop⟩
  case case3 c rest' hquote =>
    cases h
    obtain rfl : c = '"' := by simpa using hquote
    exact ⟨[], rfl, Nat.zero_le _, by simp⟩
  case case4 => cases h
  case case5 => cases h
  case case6 c _ _ hb e he a b c' d next after n hu _ low hlow ih =>
    obtain rfl : c = '\\' := by simpa using hb
    obtain rfl : e = 'u' := by simpa using he
    obtain ⟨s', h'⟩ := hread h
    obtain ⟨a', b', c'', d', more, hnext, hu'⟩ := exists_of_lowHalf? hlow
    rw [hnext] at ih h' ⊢
    have hhigh := newline_not_mem_of_unit? hu
    have hlow := newline_not_mem_of_unit? hu'
    refine hescape ['u', a, b, c', d, '\\', 'u', a', b', c'', d'] (by decide) ?_ (ih h')
    simp_all
  case case7 c _ _ hb e he a b c' d next after n hu _ _ ih
    | case8 c _ _ hb e he a b c' d next after n hu _ ih =>
    obtain rfl : c = '\\' := by simpa using hb
    obtain rfl : e = 'u' := by simpa using he
    obtain ⟨s', h'⟩ := hread h
    have hunit := newline_not_mem_of_unit? hu
    refine hescape ['u', a, b, c', d] (by decide) ?_ (ih h')
    simp_all
  case case9 => cases h
  case case10 c _ _ hb e more _ e' hesc ih =>
    obtain rfl : c = '\\' := by simpa using hb
    obtain ⟨s', h'⟩ := hread h
    have hne : e ≠ '\n' := by
      rintro rfl
      have hnone : escaped? '\n' = none := by decide
      rw [hnone] at hesc
      cases hesc
    exact hescape [e] (by decide) (by simpa using hne.symm) (ih h')
  case case11 => cases h
  case case12 => cases h
  case case13 c rest' _ _ _ hcontrol ih =>
    obtain ⟨s', h'⟩ := hread h
    have hne : c ≠ '\n' := by
      rintro rfl
      exact hcontrol (by decide)
    exact hescape [] hne (by simp) (ih h')

private theorem leaves_of_string {t s rest : Text} (h : string t = .ok (s, rest)) :
    Leaves rest ('"' :: t) := by
  obtain ⟨body, rfl, -, hbody⟩ := exists_body_of_stringFrom h
  exact .string hbody .refl

/-! ### Numbers and words -/

private theorem plain_of_isGap (c : Char) (h : isGap c = true) : Plain c := by
  constructor
  · rintro rfl
    exact absurd h (by decide)
  · rintro rfl
    exact absurd h (by decide)

private theorem plain_of_isDigit (c : Char) (h : c.isDigit = true) : Plain c := by
  constructor
  · rintro rfl
    exact absurd h (by decide)
  · rintro rfl
    exact absurd h (by decide)

private theorem leaves_skipGap (t : Text) : Leaves (skipGap t) t := .dropWhile plain_of_isGap t

private theorem leaves_spanDigits (t : Text) : Leaves (spanDigits t).2 t := by
  rw [spanDigits, List.span_eq_takeWhile_dropWhile]
  exact .dropWhile plain_of_isDigit t

private theorem leaves_fraction (t : Text) : Leaves (fraction t).2 t := by
  unfold fraction
  split
  · next rest =>
    dsimp only
    split
    · exact .refl
    · exact .plain (by decide) (leaves_spanDigits rest)
  · exact .refl

/-- An exponent is passed over. -/
theorem leaves_exponent (t : Text) : Leaves (exponent t).2 t := by
  unfold exponent
  split
  · exact .refl
  next e rest =>
  split
  · next he =>
    have hplain : Plain e := by
      obtain rfl | rfl : e = 'e' ∨ e = 'E' := by simpa using he
      · decide
      · decide
    split
    next sign after hsign =>
    have hafter : Leaves after rest := by
      split at hsign
      · cases hsign
        exact .plain (by decide) .refl
      · cases hsign
        exact .plain (by decide) .refl
      · cases hsign
        exact .refl
    dsimp only
    split
    · exact .refl
    · exact .plain hplain (hafter.trans (leaves_spanDigits after))
  · exact .refl

/-- A number is passed over, and is no object. -/
theorem leaves_of_number {t : Text} {v : Json} {rest : Text} (h : number t = .ok (v, rest)) :
    Leaves rest t ∧ ∀ fields, v ≠ .object fields := by
  unfold number at h
  split at h
  next negative body hbody =>
  have hsign : Leaves body t := by
    split at hbody
    · cases hbody
      exact .plain (by decide) .refl
    · cases hbody
      exact .refl
  split at h
  next whole after hwhole =>
  have hint : Leaves after body := by
    split at hwhole
    · cases hwhole
      exact .plain (by decide) .refl
    · obtain rfl : (spanDigits body).2 = after := congrArg Prod.snd hwhole
      exact leaves_spanDigits body
  have hall := hsign.trans (hint.trans ((leaves_fraction after).trans (leaves_exponent _)))
  split at h
  · cases h
  dsimp only at h
  split at h
  · split at h
    · cases h
      exact ⟨hall, fun _ ↦ nofun⟩
    · cases h
  · split at h
    · cases h
      exact ⟨hall, fun _ ↦ nofun⟩
    · cases h

private theorem plain_of_mem_words {word : String × Json} (h : word ∈ words) :
    (∀ c ∈ word.1.toList, Plain c) ∧ ∀ fields, word.2 ≠ .object fields := by
  have hplain : words.all (fun w ↦ w.1.toList.all fun c ↦ decide (Plain c)) = true := by decide
  refine ⟨fun c hc ↦ ?_, fun fields ↦ ?_⟩
  · exact of_decide_eq_true (List.all_eq_true.mp (List.all_eq_true.mp hplain word h) c hc)
  · rintro hobject
    simp only [words, List.mem_cons, List.not_mem_nil, or_false] at h
    obtain rfl | rfl | rfl | rfl | rfl | rfl := h <;> cases hobject

/-- A word or a number is passed over, and is no object. -/
theorem leaves_of_scalar {t : Text} {v : Json} {rest : Text} (h : scalar t = .ok (v, rest)) :
    Leaves rest t ∧ ∀ fields, v ≠ .object fields := by
  unfold scalar at h
  split at h
  · next found hfound =>
    obtain ⟨word, hword, hafter⟩ := List.exists_of_findSome?_eq_some hfound
    cases h
    obtain ⟨after, hafter, heq⟩ := Option.map_eq_some_iff.mp hafter
    cases heq
    obtain ⟨hplain, hobject⟩ := plain_of_mem_words hword
    rw [Text.eq_append_of_after? hafter]
    exact ⟨.append _ hplain, hobject⟩
  · exact leaves_of_number h

/-! ### Values -/

/-- What the readers of values, fields and items leave when they may take so many steps. -/
structure LeavesWithin (fuel : Nat) : Prop where
  value : ∀ {t v rest}, value fuel t = .ok (v, rest) → Leaves rest t
  members : ∀ {fields t v rest}, members fuel fields t = .ok (v, rest) →
    (∃ fields', v = .object fields') ∧ Leaves ('\x7d' :: rest) t
  elements : ∀ {items t v rest}, elements fuel items t = .ok (v, rest) →
    (∃ items', v = .list items') ∧ Leaves rest t

namespace LeavesWithin

variable {fuel : Nat} {t : Text} {v : Json} {rest : Text}

/-- One more step for a value. -/
theorem value_succ (ih : LeavesWithin fuel) (h : Json.value (fuel + 1) t = .ok (v, rest)) :
    Leaves rest t := by
  unfold Json.value at h
  split at h
  · obtain ⟨⟨s, after⟩, hstring, heq⟩ := exists_of_map_eq_ok h
    cases heq
    exact leaves_of_string hstring
  · next inner =>
    refine .plain (by decide) ((leaves_skipGap inner).trans ?_)
    split at h
    · next hgap =>
      cases h
      rw [hgap]
      exact .plain (by decide) .refl
    · exact (ih.members h).2.trans (.plain (by decide) .refl)
  · next inner =>
    refine .plain (by decide) ((leaves_skipGap inner).trans ?_)
    split at h
    · next hgap =>
      cases h
      rw [hgap]
      exact .plain (by decide) .refl
    · exact (ih.elements h).2
  · exact (leaves_of_scalar h).1

/-- One more step for the fields of an object. -/
theorem members_succ (ih : LeavesWithin fuel) {fields : Table Json}
    (h : Json.members (fuel + 1) fields t = .ok (v, rest)) :
    (∃ fields', v = .object fields') ∧ Leaves ('\x7d' :: rest) t := by
  unfold Json.members at h
  split at h
  · obtain ⟨⟨key, after⟩, hkey, h⟩ := exists_of_bind_eq_ok h
    have hpast := (leaves_of_string hkey).trans (leaves_skipGap after)
    dsimp only at h
    split at h
    · next inner hcolon =>
      rw [hcolon] at hpast
      obtain ⟨⟨w, after'⟩, hw, h⟩ := exists_of_bind_eq_ok h
      have hvalue := (leaves_skipGap inner).trans ((ih.value hw).trans (leaves_skipGap after'))
      have hfield := hpast.trans (.plain (by decide) hvalue)
      dsimp only at h
      split at h
      · next hend =>
        cases h
        rw [hend] at hfield
        exact ⟨⟨_, rfl⟩, hfield⟩
      · next more hcomma =>
        rw [hcomma] at hfield
        obtain ⟨hobject, hmore⟩ := ih.members h
        exact ⟨hobject, hfield.trans (.plain (by decide) ((leaves_skipGap more).trans hmore))⟩
      · cases h
    · cases h
  · cases h

/-- One more step for the items of a list. -/
theorem elements_succ (ih : LeavesWithin fuel) {items : List Json}
    (h : Json.elements (fuel + 1) items t = .ok (v, rest)) :
    (∃ items', v = .list items') ∧ Leaves rest t := by
  unfold Json.elements at h
  obtain ⟨⟨w, after⟩, hw, h⟩ := exists_of_bind_eq_ok h
  have hitem := (ih.value hw).trans (leaves_skipGap after)
  dsimp only at h
  split at h
  · next hend =>
    cases h
    rw [hend] at hitem
    exact ⟨⟨_, rfl⟩, hitem.trans (.plain (by decide) .refl)⟩
  · next more hcomma =>
    rw [hcomma] at hitem
    obtain ⟨hlist, hmore⟩ := ih.elements h
    exact ⟨hlist, hitem.trans (.plain (by decide) ((leaves_skipGap more).trans hmore))⟩
  · cases h

end LeavesWithin

/-- Reading passes over strings and plain characters, however many steps it may take. -/
theorem leavesWithin (fuel : Nat) : LeavesWithin fuel := by
  induction fuel with
  | zero => exact ⟨nofun, nofun, nofun⟩
  | succ fuel ih => exact ⟨ih.value_succ, ih.members_succ, ih.elements_succ⟩

variable {t : Text} {v : Json} {rest : Text} {fuel : Nat}

/-- What begins with a brace is read as an object if it is read, and ends with a brace. -/
theorem object_of_brace (h : value fuel ('\x7b' :: t) = .ok (v, rest)) :
    (∃ fields, v = .object fields) ∧ Leaves ('\x7d' :: rest) ('\x7b' :: t) := by
  cases fuel with
  | zero => cases h
  | succ fuel =>
    rw [value] at h
    have hgap := leaves_skipGap t
    split at h
    · next hend =>
      cases h
      rw [hend] at hgap
      exact ⟨⟨_, rfl⟩, .plain (by decide) hgap⟩
    · obtain ⟨hobject, hmembers⟩ := (leavesWithin fuel).members h
      exact ⟨hobject, .plain (by decide) (hgap.trans hmembers)⟩

/-- What is read as an object begins with a brace. -/
theorem brace_of_object {fields : List (Text × Json)}
    (h : value fuel t = .ok (.object fields, rest)) : ∃ inner, t = '\x7b' :: inner := by
  cases fuel with
  | zero => cases h
  | succ fuel =>
    unfold value at h
    split at h
    · obtain ⟨⟨s, after⟩, -, heq⟩ := exists_of_map_eq_ok h
      cases heq
    · exact ⟨_, rfl⟩
    · split at h
      · cases h
      · obtain ⟨⟨items, hitems⟩, -⟩ := (leavesWithin fuel).elements h
        cases hitems
    · exact absurd rfl ((leaves_of_scalar h).2 fields)

/-! ### Whole texts -/

/-- A text that is read is a value with blanks around it. -/
theorem exists_value_of_read (h : read t = .ok v) :
    ∃ fuel rest, value fuel (skipGap t) = .ok (v, rest) ∧ skipGap rest = [] := by
  unfold read at h
  split at h
  · next w hall =>
    cases h
    unfold readAll at hall
    split at hall
    · cases hall
    · obtain ⟨⟨w', rest⟩, hvalue, hend⟩ := exists_of_bind_eq_ok hall
      dsimp only at hend
      split at hend
      · next hgap =>
        cases hend
        exact ⟨_, rest, hvalue, hgap⟩
      · cases hend
  · cases h
  · cases h

/-- Nothing is left of a text that is read. -/
theorem leaves_of_read (h : read t = .ok v) : Leaves [] t := by
  obtain ⟨fuel, rest, hvalue, hend⟩ := exists_value_of_read h
  have hgap := leaves_skipGap rest
  rw [hend] at hgap
  exact (leaves_skipGap t).trans (((leavesWithin fuel).value hvalue).trans hgap)

/-- Reading the text does not stop at an integer that is too long. -/
def WithinLimit (t : Text) : Prop := ∀ e, read t ≠ .error (.number e)

/-- Whether a text is not JSON for a flaw in it. -/
def isFlawed (t : Text) : Bool :=
  match read t with
  | .error (.flaw ..) => true
  | _ => false

/-- A text is flawed exactly when it is not read, although it is within the limit. -/
theorem isFlawed_iff : isFlawed t = true ↔ (∀ v, read t ≠ .ok v) ∧ WithinLimit t := by
  unfold isFlawed WithinLimit
  cases read t with
  | ok v => simp
  | error e => cases e <;> simp

end Json

end Deskhand
