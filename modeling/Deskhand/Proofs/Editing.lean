import Deskhand.Text.Blank

/-!
# Trimming and replacing

What an edit of a text changes and what it leaves alone. Trimming leaves a text without blanks at
its ends alone. Replacing leaves alone a text that is too short for the part or lacks its first
character; a part of one character is replaced character by character, and nothing comes in but what
is put in. A character that is not in the part stays, and what stands before and after it is replaced
by itself.
-/

namespace Deskhand.Text

variable {t old new : Text}

/-! ### Trimming -/

private theorem isBlank_eq_any (c : Char) :
    isBlank c = blankRanges.toList.any fun r ↦ r.1 ≤ c.toNat && c.toNat ≤ r.2 := by
  rw [isBlank, inRanges, Array.any_toList]

/-- A space is a blank. -/
theorem isBlank_space : isBlank ' ' = true := (isBlank_eq_any ' ').trans (by decide)

/-- A tab is a blank. -/
theorem isBlank_tab : isBlank '\t' = true := (isBlank_eq_any '\t').trans (by decide)

/-- A line feed is a blank. -/
theorem isBlank_lineFeed : isBlank '\n' = true := (isBlank_eq_any '\n').trans (by decide)

/-- A visible character of ASCII is no blank. -/
theorem isBlank_of_visible {c : Char} (h : '!' ≤ c ∧ c ≤ '~') : isBlank c = false := by
  have hfirst : 33 ≤ c.toNat := h.1
  have hlast : c.toNat ≤ 126 := h.2
  rw [isBlank, inRanges, Array.any_eq_false']
  intro r hr
  simp only [blankRanges, List.mem_toArray, List.mem_cons, List.not_mem_nil, or_false] at hr
  -- every stretch ends before the first visible character or begins after the last one
  have hout : r.2 < 33 ∨ 126 < r.1 := by
    rcases hr with rfl | rfl | rfl | rfl | rfl | rfl | rfl | rfl | rfl | rfl <;> decide
  rw [Bool.and_eq_true, decide_eq_true_eq, decide_eq_true_eq]
  omega

/-- The visible characters of ASCII. -/
def isVisible (c : Char) : Bool := '!' ≤ c && c ≤ '~'

/-- They are no blanks. -/
theorem isBlank_of_isVisible {c : Char} (h : isVisible c = true) : isBlank c = false := by
  rw [isVisible, Bool.and_eq_true, decide_eq_true_eq, decide_eq_true_eq] at h
  exact isBlank_of_visible h

/-- Trimming the end leaves the beginning. -/
theorem prefix_trimRight (t : Text) : trimRight t <+: t := by
  rw [trimRight, ← List.reverse_suffix, List.reverse_reverse]
  exact List.dropWhile_suffix _

/-- What is left does not end with a blank. -/
theorem isBlank_of_getLast?_trimRight {c : Char} (h : c ∈ (trimRight t).getLast?) :
    isBlank c = false := by
  rw [trimRight, List.getLast?_reverse] at h
  have hhead := List.head?_dropWhile_not isBlank t.reverse
  rw [h] at hhead
  simpa using hhead

/-- Trimming the end of two texts in a row stops in the second, unless nothing is left of it. -/
theorem trimRight_append (s t : Text) :
    trimRight (s ++ t) = if trimRight t = [] then trimRight s else s ++ trimRight t := by
  simp only [trimRight, List.reverse_append, List.dropWhile_append, List.reverse_eq_nil_iff,
    List.isEmpty_iff]
  split
  · rfl
  · simp

/-- A text that does not end with a blank is left alone. -/
theorem trimRight_eq_self {t : Text} (h : ∀ c ∈ t.getLast?, isBlank c = false) :
    trimRight t = t := by
  rw [← List.head?_reverse] at h
  rw [trimRight, List.reverse_eq_iff]
  cases hr : t.reverse with
  | nil => rfl
  | cons c u =>
    rw [hr] at h
    rw [List.dropWhile_cons_of_neg (by simp [h c rfl])]

/-- What is left after trimming was there before, in the same order. -/
theorem trim_sublist (t : Text) : (trim t).Sublist t :=
  (prefix_trimRight (trimLeft t)).sublist.trans (List.dropWhile_sublist _)

/-- A text that neither begins nor ends with a blank is left alone. -/
theorem trim_eq_self (hfirst : ∀ c ∈ t.head?, isBlank c = false)
    (hlast : ∀ c ∈ t.getLast?, isBlank c = false) : trim t = t := by
  have hkeep : ∀ u : Text, (∀ c ∈ u.head?, isBlank c = false) → u.dropWhile isBlank = u := by
    intro u hu
    cases u with
    | nil => rfl
    | cons c u => rw [List.dropWhile_cons, hu c rfl, if_neg Bool.false_ne_true]
  rw [trim, trimLeft, hkeep t hfirst, trimRight, hkeep t.reverse (by simpa using hlast),
    List.reverse_reverse]

/-- A text that begins and ends with visible characters of ASCII is left alone. -/
theorem trim_of_visible (hfirst : t.head?.all isVisible = true)
    (hlast : t.getLast?.all isVisible = true) : trim t = t := by
  refine trim_eq_self (fun c hc ↦ ?_) fun c hc ↦ ?_
  · rw [Option.mem_def.mp hc] at hfirst
    exact isBlank_of_isVisible hfirst
  · rw [Option.mem_def.mp hc] at hlast
    exact isBlank_of_isVisible hlast

/-- Two texts in a row are left alone, if the first does not begin and the second does not end with a
blank. -/
theorem trim_append {t u : Text} (ht : t ≠ []) (hu : u ≠ [])
    (hfirst : ∀ c ∈ t.head?, isBlank c = false) (hlast : ∀ c ∈ u.getLast?, isBlank c = false) :
    trim (t ++ u) = t ++ u := by
  have hhead : (t ++ u).head? = t.head? := by
    rw [List.head?_append, List.head?_eq_some_head ht, Option.some_or]
  have hend : (t ++ u).getLast? = u.getLast? := by
    rw [List.getLast?_append, List.getLast?_eq_some_getLast hu, Option.some_or]
  exact trim_eq_self (hhead ▸ hfirst) (hend ▸ hlast)

/-- A text that is left alone by trimming neither begins nor ends with a blank. -/
theorem ends_of_trim_eq_self (h : trim t = t) :
    (∀ c ∈ t.head?, isBlank c = false) ∧ ∀ c ∈ t.getLast?, isBlank c = false := by
  have hleft : trimLeft t = t := by
    have hlength : (trim t).length ≤ (trimLeft t).length := (prefix_trimRight _).length_le
    rw [h] at hlength
    exact (List.dropWhile_sublist _).eq_of_length_le hlength
  constructor
  · intro c hc
    have hhead := List.head?_dropWhile_not isBlank t
    rw [← trimLeft, hleft, hc] at hhead
    simpa using hhead
  · intro c hc
    rw [← h] at hc
    exact isBlank_of_getLast?_trimRight hc

/-! ### Replacing -/

/-- A part that is not empty is looked for from the beginning. -/
theorem replaceAll_of_ne_nil (h : old ≠ []) : replaceAll t old new = replaceFrom old new 0 t := by
  rw [replaceAll, if_neg (by simpa using h)]

private theorem replaceFrom_length_append (a b : Text) :
    replaceFrom old new a.length (a ++ b) = replaceFrom old new 0 b := by
  induction a with
  | nil => rfl
  | cons c a ih => exact ih

/-- The part at the beginning is replaced, and then what follows. -/
theorem replaceFrom_self_append (h : old ≠ []) (b : Text) :
    replaceFrom old new 0 (old ++ b) = new ++ replaceFrom old new 0 b := by
  cases old with
  | nil => exact absurd rfl h
  | cons c old =>
    have hp : (c :: old).isPrefixOf (c :: (old ++ b)) = true := by
      rw [List.isPrefixOf_iff_prefix]
      exact List.prefix_append (c :: old) b
    rw [List.cons_append, replaceFrom, if_pos hp]
    congr 1
    exact replaceFrom_length_append old b

/-- What lacks the first character of the part is left alone, whatever follows. -/
theorem replaceFrom_append_of_not_mem {c : Char} {a : Text} (h : c ∉ a) (b : Text) :
    replaceFrom (c :: old) new 0 (a ++ b) = a ++ replaceFrom (c :: old) new 0 b := by
  induction a with
  | nil => rfl
  | cons d a ih =>
    have hd : (c == d) = false := by simpa using fun he ↦ h (by simp [he])
    rw [List.cons_append, replaceFrom, List.isPrefixOf, hd, Bool.false_and,
      if_neg Bool.false_ne_true, ih fun hm ↦ h (List.mem_cons_of_mem d hm), List.cons_append]

/-- A text without the first character of the part is left alone. -/
theorem replaceAll_of_not_mem {c : Char} (h : c ∉ t) (old new : Text) :
    replaceAll t (c :: old) new = t := by
  have hleft : replaceFrom (c :: old) new 0 (t ++ []) = t ++ replaceFrom (c :: old) new 0 [] :=
    replaceFrom_append_of_not_mem h []
  rw [replaceFrom_nil, List.append_nil] at hleft
  rw [replaceAll_of_ne_nil (List.cons_ne_nil c old), hleft]

/-- A text in which the part does not occur is left alone. -/
theorem replaceAll_of_not_infix (h : ¬ old <:+: t) : replaceAll t old new = t := by
  have hold : old ≠ [] := by
    rintro rfl
    exact h List.nil_infix
  rw [replaceAll_of_ne_nil hold]
  induction t with
  | nil => rfl
  | cons c t ih =>
    have hp : old.isPrefixOf (c :: t) = false := by
      rw [Bool.eq_false_iff, ne_eq, List.isPrefixOf_iff_prefix]
      exact fun hp ↦ h hp.isInfix
    rw [replaceFrom, hp, if_neg Bool.false_ne_true,
      ih fun hi ↦ h (hi.trans (List.suffix_cons c t).isInfix)]

/-- A text shorter than the part is left alone. -/
theorem replaceAll_of_length_lt (h : t.length < old.length) : replaceAll t old new = t := by
  rw [replaceAll_of_ne_nil fun he ↦ by simp [he] at h]
  induction t with
  | nil => rfl
  | cons c t ih =>
    have hp : old.isPrefixOf (c :: t) = false := by
      rw [Bool.eq_false_iff, ne_eq, List.isPrefixOf_iff_prefix]
      exact fun hp ↦ absurd hp.length_le (by omega)
    rw [replaceFrom, hp, if_neg Bool.false_ne_true,
      ih (by simp only [List.length_cons] at h; omega)]

/-- A text that is the part is replaced as a whole. -/
theorem replaceAll_self (h : old ≠ []) : replaceAll old old new = new := by
  have hself : replaceFrom old new 0 (old ++ []) = new ++ replaceFrom old new 0 [] :=
    replaceFrom_self_append h []
  rw [replaceFrom_nil, List.append_nil, List.append_nil] at hself
  rw [replaceAll_of_ne_nil h, hself]

/-- A part of one character is replaced character by character. -/
theorem replaceAll_singleton (t : Text) (c : Char) (new : Text) :
    replaceAll t [c] new = t.flatMap fun d ↦ if d = c then new else [d] := by
  rw [replaceAll_of_ne_nil (List.cons_ne_nil c [])]
  induction t with
  | nil => rfl
  | cons d t ih =>
    by_cases h : d = c
    · simp [replaceFrom, List.isPrefixOf, h, ih]
    · have hd : (c == d) = false := by simpa using fun he ↦ h he.symm
      simp [replaceFrom, List.isPrefixOf, h, hd, ih]

/-- Every character afterwards was there before or was put in. -/
theorem mem_of_mem_replaceFrom {c : Char} {skip : Nat} (h : c ∈ replaceFrom old new skip t) :
    c ∈ t ∨ c ∈ new := by
  induction t generalizing skip with
  | nil => simp at h
  | cons d t ih =>
    cases skip with
    | succ skip =>
      rw [replaceFrom] at h
      exact (ih h).imp_left (List.mem_cons_of_mem d)
    | zero =>
      rw [replaceFrom] at h
      split at h
      · rcases List.mem_append.1 h with h | h
        · exact .inr h
        · exact (ih h).imp_left (List.mem_cons_of_mem d)
      · rcases List.mem_cons.1 h with rfl | h
        · exact .inl List.mem_cons_self
        · exact (ih h).imp_left (List.mem_cons_of_mem d)

/-- Every character afterwards was there before or was put in, whatever the part. -/
theorem mem_of_mem_replaceAll {c : Char} (h : c ∈ replaceAll t old new) : c ∈ t ∨ c ∈ new := by
  cases old with
  | nil =>
    rw [replaceAll, if_pos List.isEmpty_nil, List.mem_append, List.mem_flatMap] at h
    rcases h with h | ⟨d, hd, h⟩
    · exact .inr h
    · rcases List.mem_cons.1 h with rfl | h
      · exact .inl hd
      · exact .inr h
  | cons d old =>
    rw [replaceAll_of_ne_nil (List.cons_ne_nil d old)] at h
    exact mem_of_mem_replaceFrom h

/-- A text that goes on with a character not in the word begins with the word only if the beginning
does. -/
theorem startsWith_append_of_not_mem {c : Char} {word rest : Text} (hc : c ∉ word)
    (hrest : ∀ d ∈ rest.head?, d = c) (first : Text) :
    startsWith (first ++ rest) word = startsWith first word := by
  induction first generalizing word with
  | nil =>
    cases word with
    | nil => simp
    | cons d word =>
      cases rest with
      | nil => rfl
      | cons e rest =>
        obtain rfl : e = c := hrest e rfl
        have hne : (d == e) = false := by simpa using fun he ↦ hc (by simp [he])
        simp [startsWith, List.isPrefixOf, hne]
  | cons e first ih =>
    cases word with
    | nil => simp
    | cons d word =>
      have htail := ih fun hm ↦ hc (List.mem_cons_of_mem d hm)
      simp only [startsWith, List.cons_append, List.isPrefixOf] at htail ⊢
      rw [htail]

/-- On both sides of a character that is not in the part, the part is replaced by itself. -/
theorem replaceFrom_append_cons {c : Char} (hc : c ∉ old) (hold : old ≠ []) (b : Text) {a : Text}
    {skip : Nat} (hskip : skip ≤ a.length) :
    replaceFrom old new skip (a ++ c :: b) =
      replaceFrom old new skip a ++ c :: replaceFrom old new 0 b := by
  induction a generalizing skip with
  | nil =>
    obtain rfl : skip = 0 := Nat.le_zero.mp hskip
    have hno : ¬ old.isPrefixOf (c :: b) = true := by
      intro h
      obtain ⟨d, rest, rfl⟩ := List.exists_cons_of_ne_nil hold
      simp only [List.isPrefixOf, Bool.and_eq_true, beq_iff_eq] at h
      exact hc (h.1 ▸ List.mem_cons_self)
    rw [List.nil_append, replaceFrom_nil, List.nil_append, replaceFrom, if_neg hno]
  | cons d a ih =>
    cases skip with
    | succ skip => exact ih (Nat.le_of_succ_le_succ hskip)
    | zero =>
      have hnext : ∀ e ∈ (c :: b).head?, e = c := by simp
      have hstarts : old.isPrefixOf (d :: (a ++ c :: b)) = old.isPrefixOf (d :: a) :=
        startsWith_append_of_not_mem hc hnext (d :: a)
      rw [List.cons_append, replaceFrom, replaceFrom, hstarts]
      by_cases hp : old.isPrefixOf (d :: a) = true
      · have hle := (List.isPrefixOf_iff_prefix.1 hp).length_le
        rw [List.length_cons] at hle
        rw [if_pos hp, if_pos hp, ih (by omega), List.append_assoc]
      · rw [if_neg hp, if_neg hp, ih (Nat.zero_le _), List.cons_append]

/-- On both sides of a character that is not in the part, all occurrences are replaced by
themselves. -/
theorem replaceAll_append_cons {c : Char} (hc : c ∉ old) (hold : old ≠ []) (a b : Text) :
    replaceAll (a ++ c :: b) old new = replaceAll a old new ++ c :: replaceAll b old new := by
  simp only [replaceAll_of_ne_nil hold]
  exact replaceFrom_append_cons hc hold b (Nat.zero_le _)

/-- A character that is not in the part stays wherever it stands. -/
theorem count_le_count_replaceAll {c : Char} (hc : c ∉ old) (t : Text) :
    t.count c ≤ (replaceAll t old new).count c := by
  by_cases hold : old = []
  · rw [replaceAll, if_pos (by simp [hold]), List.count_append]
    have hkeep : t.count c ≤ (t.flatMap fun d ↦ d :: new).count c := by
      induction t with
      | nil => exact Nat.zero_le _
      | cons d t ih =>
        rw [List.flatMap_cons, List.cons_append, List.count_cons, List.count_cons,
          List.count_append]
        omega
    omega
  · induction hn : t.count c generalizing t with
    | zero => exact Nat.zero_le _
    | succ n ih =>
      obtain ⟨a, b, rfl, ha⟩ :=
        List.eq_append_cons_of_mem (List.count_pos_iff.mp (show 0 < t.count c by omega))
      rw [List.count_append, List.count_cons_self, List.count_eq_zero.mpr ha] at hn
      have hb := ih b (by omega)
      rw [replaceAll_append_cons hc hold, List.count_append, List.count_cons_self]
      omega

/-- Putting in no more than is taken out does not make a text longer. -/
theorem length_replaceFrom_le (h : new.length ≤ old.length) (skip : Nat) :
    (replaceFrom old new skip t).length ≤ t.length - skip := by
  induction t generalizing skip with
  | nil => simp
  | cons c t ih =>
    cases skip with
    | succ skip =>
      rw [replaceFrom, List.length_cons, Nat.add_sub_add_right]
      exact ih skip
    | zero =>
      rw [replaceFrom]
      split
      · next hp =>
        have hle := (List.isPrefixOf_iff_prefix.1 hp).length_le
        have hrest := ih (old.length - 1)
        simp only [List.length_cons, List.length_append] at hle ⊢
        omega
      · have hrest := ih 0
        simp only [List.length_cons] at hrest ⊢
        omega

end Deskhand.Text
