import Deskhand.Proofs.Editing
import Deskhand.Proofs.SpacedDelays
import Deskhand.Script.Run

/-!
# Texts with blanks after `DELAY`

`Gapped t t'` says that `t'` is `t` with blanks put between some `DELAY`s and the digits directly
behind them. Cutting into lines, trimming and dropping comments lead from such texts to such texts.
Neither the plain words that a text begins with nor whether it is empty depend on the blanks.
-/

namespace Deskhand

namespace Text

/-! ### Digits -/

/-- A digit is one of the ten of a script. -/
theorem exists_zero_of_isDecimal {d : Char} (hd : isDecimal d = true) :
    ∃ z ∈ digitZeros, z ≤ d.toNat ∧ d.toNat ≤ z + 9 := by
  rw [isDecimal, digitValue?] at hd
  split at hd
  · split at hd
    · next hdigit =>
      simp only [Char.isDigit, Bool.and_eq_true, decide_eq_true_eq] at hdigit
      exact ⟨48, Array.mem_toList_iff.mp List.mem_cons_self, hdigit.1, hdigit.2⟩
    · cases hd
  · rw [Option.isSome_map, Array.find?_isSome] at hd
    obtain ⟨z, hz, hrange⟩ := hd
    rw [Bool.and_eq_true, decide_eq_true_eq, decide_eq_true_eq] at hrange
    exact ⟨z, hz, hrange⟩

/-- A class of characters whose stretches keep clear of the digits has no digit. -/
theorem inRanges_of_isDecimal {ranges : Array (Nat × Nat)}
    (h : (digitZeros.toList.all fun z ↦ ranges.toList.all fun r ↦
      r.2 < z || z + 9 < r.1) = true) {d : Char}
    (hd : isDecimal d = true) : inRanges ranges d = false := by
  obtain ⟨z, hz, hlow, hhigh⟩ := exists_zero_of_isDecimal hd
  have hclear := List.all_eq_true.mp (List.all_eq_true.mp h z (Array.mem_toList_iff.mpr hz))
  rw [inRanges, Array.any_eq_false']
  intro r hr
  have hr := hclear r (Array.mem_toList_iff.mpr hr)
  rw [Bool.or_eq_true, decide_eq_true_eq, decide_eq_true_eq] at hr
  rw [Bool.and_eq_true, decide_eq_true_eq, decide_eq_true_eq]
  omega

/-- A digit is no blank. -/
theorem isBlank_of_isDecimal {d : Char} (hd : isDecimal d = true) : isBlank d = false :=
  inRanges_of_isDecimal (by decide) hd

private theorem isLineEnd_of_isDecimal {d : Char} (hd : isDecimal d = true) :
    isLineEnd d = false := by
  obtain ⟨z, hz, hlow, hhigh⟩ := exists_zero_of_isDecimal hd
  have hends : ∀ z ∈ digitZeros.toList, z = 48 ∨ 0x85 < z ∧ (z + 9 < 0x2028 ∨ 0x2029 < z) := by
    decide
  have hz := hends z (Array.mem_toList_iff.mpr hz)
  simp only [isLineEnd, Bool.or_eq_false_iff, Bool.and_eq_false_iff, decide_eq_false_iff_not,
    beq_eq_false_iff_ne]
  omega

/-- Trimming the end of a text that goes on after a character that is no blank. -/
theorem trimRight_append_of_getLast? {s : Text} (h : ∀ c ∈ s.getLast?, isBlank c = false)
    (t : Text) : trimRight (s ++ t) = s ++ trimRight t := by
  rw [trimRight_append]
  split
  · next hnil => rw [trimRight_eq_self h, hnil, List.append_nil]
  · rfl

/-- A text that was trimmed is left alone. -/
theorem trim_trim (t : Text) : trim (trim t) = trim t := by
  refine trim_eq_self (fun c hc ↦ ?_) fun c hc ↦ isBlank_of_getLast?_trimRight hc
  obtain ⟨rest, hrest⟩ := prefix_trimRight (trimLeft t)
  obtain ⟨u, hu⟩ := List.head?_eq_some_iff.mp hc
  have hhead := List.head?_dropWhile_not isBlank t
  rw [← trimLeft, ← hrest, ← trim, hu] at hhead
  simpa using hhead

/-! ### Lines -/

/-- What ends no line belongs to the current one. -/
theorem linesFrom_append {w : Text} (hw : ∀ c ∈ w, isLineEnd c = false) (line : Text)
    (afterReturn : Bool) (t : Text) : linesFrom line afterReturn (w ++ t) =
      linesFrom (w.reverse ++ line) (afterReturn && w.isEmpty) t := by
  induction w generalizing line afterReturn with
  | nil => simp
  | cons c w ih =>
    rw [List.forall_mem_cons] at hw
    have hfeed : (c == '\n') = false := by
      rw [beq_eq_false_iff_ne]
      rintro rfl
      cases hw.1
    rw [List.cons_append, linesFrom, hfeed, Bool.and_false, if_neg Bool.false_ne_true, hw.1,
      if_neg Bool.false_ne_true, ih hw.2]
    simp

/-- A further line feed at the end adds at most an empty line. -/
theorem linesFrom_append_feed (t line : Text) (afterReturn : Bool)
    (h : afterReturn = true → line = []) :
    linesFrom line afterReturn (t ++ ['\n']) = linesFrom line afterReturn t ∨
      linesFrom line afterReturn (t ++ ['\n']) = linesFrom line afterReturn t ++ [[]] := by
  induction t generalizing line afterReturn with
  | nil =>
    cases afterReturn with
    | true =>
      rw [h rfl]
      exact .inl rfl
    | false =>
      cases line with
      | nil => exact .inr rfl
      | cons c line => exact .inl (by simp [linesFrom, isLineEnd])
  | cons c t ih =>
    rw [List.cons_append, linesFrom, linesFrom]
    split
    · exact ih [] false fun _ ↦ rfl
    · split
      · rcases ih [] (c == '\r') fun _ ↦ rfl with he | he
        · exact .inl (by rw [he])
        · exact .inr (by rw [he, List.cons_append])
      · exact ih (c :: line) false fun hf ↦ absurd hf Bool.false_ne_true

/-- Line feeds at the end make empty lines. -/
theorem exists_lines_trimEnd (t : Text) :
    ∃ n, lines t = lines (trimEnd (· == '\n') t) ++ List.replicate n [] := by
  induction t using List.reverseRecOn with
  | nil => exact ⟨0, rfl⟩
  | append_singleton t c ih =>
    by_cases hc : c = '\n'
    · subst hc
      obtain ⟨n, hn⟩ := ih
      have htrim : trimEnd (· == '\n') (t ++ ['\n']) = trimEnd (· == '\n') t := by simp [trimEnd]
      rw [htrim]
      rcases linesFrom_append_feed t [] false (fun _ ↦ rfl) with he | he
      · exact ⟨n, by rw [lines, he, ← lines, hn]⟩
      · refine ⟨n + 1, ?_⟩
        rw [lines, he, ← lines, hn, List.append_assoc, List.replicate_succ']
    · have htrim : trimEnd (· == '\n') (t ++ [c]) = t ++ [c] := by simp [trimEnd, hc]
      exact ⟨0, by rw [htrim, List.replicate_zero, List.append_nil]⟩

end Text

namespace Broker

/-- The second text is the first with blanks put between some `DELAY`s and the digits directly
behind them. -/
inductive Gapped : Text → Text → Prop where
  | nil : Gapped [] []
  | cons (c : Char) {t t' : Text} (h : Gapped t t') : Gapped (c :: t) (c :: t')
  | gap {d : Char} (hd : Text.isDecimal d = true) {t t' : Text} (h : Gapped t t') :
      Gapped (delayWord ++ d :: t) (delayWord ++ ' ' :: d :: t')

namespace Gapped

variable {c : Char} {s s' t t' : Text}

/-- No blanks may come in. -/
theorem refl (t : Text) : Gapped t t := by
  induction t with
  | nil => exact .nil
  | cons c t ih => exact .cons c ih

/-- Blanks may come into each of two texts in a row. -/
theorem append (h : Gapped s s') (h' : Gapped t t') : Gapped (s ++ t) (s' ++ t') := by
  induction h with
  | nil => exact h'
  | cons c _ ih => exact .cons c ih
  | gap hd _ ih => exact .gap hd ih

private theorem of_cons (h : Gapped (c :: t) t') : (∃ u', t' = c :: u' ∧ Gapped t u') ∨
    ∃ d u u', Text.isDecimal d = true ∧ c :: t = delayWord ++ d :: u ∧
      t' = delayWord ++ ' ' :: d :: u' ∧ Gapped u u' := by
  generalize hs : c :: t = s at h
  cases h with
  | nil => cases hs
  | cons d h =>
    cases hs
    exact .inl ⟨_, rfl, h⟩
  | gap hd h => exact .inr ⟨_, _, _, hd, rfl, rfl, h⟩

/-- A word from which no `DELAY` can be reached stays at the beginning. -/
theorem of_append {w : Text} (hw : ∀ n < w.length, ¬ w.drop n <+: delayWord ∧
    ¬ delayWord <+: w.drop n) (h : Gapped (w ++ t) t') : ∃ u', t' = w ++ u' ∧ Gapped t u' := by
  induction w generalizing t' with
  | nil => exact ⟨t', rfl, h⟩
  | cons c w ih =>
    rcases of_cons h with ⟨u', rfl, hrest⟩ | ⟨d, u, u', -, hword, -⟩
    · obtain ⟨v', rfl, ht⟩ := ih (fun n hn ↦ hw (n + 1) (Nat.succ_lt_succ hn)) hrest
      exact ⟨v', rfl, ht⟩
    · have hstart := List.prefix_or_prefix_of_prefix (List.prefix_append (c :: w) t)
        (hword ▸ List.prefix_append delayWord (d :: u))
      rcases hstart with hstart | hstart
      · exact absurd hstart (hw 0 (Nat.succ_pos _)).1
      · exact absurd hstart (hw 0 (Nat.succ_pos _)).2

/-- If blanks come in at all, there is a `DELAY` that is followed by a digit. -/
theorem eq_or (h : Gapped t t') : t' = t ∨ HasTightDelay t ∧ delayWord <:+: t' := by
  induction h with
  | nil => exact .inl rfl
  | cons c _ ih =>
    rcases ih with rfl | ⟨⟨d, hd, hoccurs⟩, hword⟩
    · exact .inl rfl
    · exact .inr ⟨⟨d, hd, hoccurs.trans (List.suffix_cons ..).isInfix⟩,
        hword.trans (List.suffix_cons ..).isInfix⟩
  | @gap d hd t t' _ _ =>
    refine .inr ⟨⟨d, hd, ?_⟩, (List.prefix_append ..).isInfix⟩
    exact ⟨[], t, by simp⟩

/-- A text at most doubles. -/
theorem length_le (h : Gapped t t') : t'.length ≤ 2 * t.length := by
  induction h with
  | nil => exact Nat.le_refl 0
  | cons c _ ih =>
    rw [List.length_cons, List.length_cons]
    omega
  | gap _ _ ih =>
    simp only [List.length_append, List.length_cons]
    omega

/-- All characters but blanks were there before. -/
theorem mem_or (h : Gapped t t') (hc : c ∈ t') : c ∈ t ∨ c = ' ' := by
  induction h with
  | nil => exact .inl hc
  | cons d _ ih =>
    rcases List.mem_cons.mp hc with rfl | hc
    · exact .inl List.mem_cons_self
    · exact (ih hc).imp_left (List.mem_cons_of_mem d)
  | gap _ _ ih =>
    simp only [List.mem_append, List.mem_cons] at hc ⊢
    rcases hc with hc | rfl | rfl | hc
    · exact .inl (.inl hc)
    · exact .inr rfl
    · exact .inl (.inr (.inl rfl))
    · exact (ih hc).imp_left fun hm ↦ .inr (.inr hm)

/-- Blanks come in before the last character only. -/
theorem getLast?_eq (h : Gapped t t') : t'.getLast? = t.getLast? := by
  induction h with
  | nil => rfl
  | cons c _ ih => rw [List.getLast?_cons, List.getLast?_cons, ih]
  | gap _ _ ih =>
    simp only [List.getLast?_append, List.getLast?_cons, ih, Option.getD_some]

/-- Only the empty text becomes empty, and it stays so. -/
theorem eq_nil_iff (h : Gapped t t') : t' = [] ↔ t = [] := by
  cases h with
  | nil => rfl
  | cons c _ => simp
  | gap _ _ => simp

/-- Keeping the beginning of a text that holds only certain characters, among which the blank, the
digits and those of `DELAY`. -/
theorem takeWhile {p : Char → Bool} (hword : delayWord.all p = true) (hblank : p ' ' = true)
    (hdigit : ∀ d, Text.isDecimal d = true → p d = true) (h : Gapped t t') :
    Gapped (t.takeWhile p) (t'.takeWhile p) := by
  rw [List.all_eq_true] at hword
  induction h with
  | nil => exact .nil
  | cons c _ ih =>
    rw [List.takeWhile_cons, List.takeWhile_cons]
    split
    · exact .cons c ih
    · exact .nil
  | gap hd _ ih =>
    rw [List.takeWhile_append_of_pos hword, List.takeWhile_append_of_pos hword,
      List.takeWhile_cons_of_pos hblank, List.takeWhile_cons_of_pos (hdigit _ hd),
      List.takeWhile_cons_of_pos (hdigit _ hd)]
    exact .gap hd ih

/-- Trimming the beginning. -/
theorem trimLeft (h : Gapped t t') : Gapped (Text.trimLeft t) (Text.trimLeft t') := by
  have hstart : ∀ u, Text.trimLeft (delayWord ++ u) = delayWord ++ u := fun u ↦
    List.dropWhile_cons_of_neg (Bool.eq_false_iff.mp (Text.isBlank_of_visible (by decide)))
  induction h with
  | nil => exact .nil
  | @cons c t t' h ih =>
    rw [Text.trimLeft, Text.trimLeft, List.dropWhile_cons, List.dropWhile_cons]
    split
    · exact ih
    · exact .cons c h
  | gap hd h _ =>
    rw [hstart, hstart]
    exact .gap hd h

/-- Trimming the end. -/
theorem trimRight (h : Gapped t t') : Gapped (Text.trimRight t) (Text.trimRight t') := by
  induction h with
  | nil => exact .nil
  | @cons c t t' _ ih =>
    have hcons : ∀ u : Text, Text.trimRight (c :: u) =
        if Text.trimRight u = [] then Text.trimRight [c] else c :: Text.trimRight u := fun u ↦
      Text.trimRight_append [c] u
    rw [hcons t, hcons t']
    simp only [ih.eq_nil_iff]
    split
    · exact refl _
    · exact .cons c ih
  | @gap d hd t t' _ ih =>
    have hend : ∀ a : Text, ∀ c ∈ (a ++ [d]).getLast?, Text.isBlank c = false := by
      intro a c hc
      rw [List.getLast?_concat, Option.mem_some_iff] at hc
      rw [← hc, Text.isBlank_of_isDecimal hd]
    have hfirst : delayWord ++ d :: t = (delayWord ++ [d]) ++ t := by simp
    have hsecond : delayWord ++ ' ' :: d :: t' = (delayWord ++ [' '] ++ [d]) ++ t' := by simp
    rw [hfirst, hsecond, Text.trimRight_append_of_getLast? (hend _),
      Text.trimRight_append_of_getLast? (hend _)]
    simpa using Gapped.gap hd ih

/-- Trimming both ends. -/
theorem trim (h : Gapped t t') : Gapped (Text.trim t) (Text.trim t') := h.trimLeft.trimRight

/-- Dropping a comment. -/
theorem withoutComment (h : Gapped t t') :
    Gapped (Script.Macro.withoutComment t) (Script.Macro.withoutComment t') := by
  refine (h.takeWhile (by decide) (by decide) fun d hd ↦ ?_).trim
  rw [bne_iff_ne]
  rintro rfl
  cases hd

/-- Cutting into lines, after a beginning of the current one. -/
theorem linesFrom (line line' : Text) (hline : Gapped line.reverse line'.reverse)
    (afterReturn : Bool) (h : Gapped t t') : List.Forall₂ Gapped
      (Text.linesFrom line afterReturn t) (Text.linesFrom line' afterReturn t') := by
  have hnone : Gapped (List.reverse ([] : Text)) (List.reverse ([] : Text)) := .nil
  have hreverse : ∀ u v : Text, (u.reverse ++ v).reverse = v.reverse ++ u := by simp
  induction h generalizing line line' afterReturn with
  | nil =>
    have hempty : line'.isEmpty = line.isEmpty := by
      have hnil := hline.eq_nil_iff
      rw [List.reverse_eq_nil_iff, List.reverse_eq_nil_iff] at hnil
      rw [Bool.eq_iff_iff, List.isEmpty_iff, List.isEmpty_iff, hnil]
    rw [Text.linesFrom, Text.linesFrom, hempty]
    split
    · exact .nil
    · exact .cons hline .nil
  | cons c _ ih =>
    rw [Text.linesFrom, Text.linesFrom]
    split
    · exact ih [] [] hnone _
    · split
      · exact .cons hline (ih [] [] hnone _)
      · refine ih _ _ ?_ _
        rw [List.reverse_cons, List.reverse_cons]
        exact hline.append (refl [c])
  | @gap d hd t t' _ ih =>
    have hdigit := Text.isLineEnd_of_isDecimal hd
    have hword : ∀ c ∈ delayWord, Text.isLineEnd c = false := by
      have hall : delayWord.all (!Text.isLineEnd ·) = true := by decide
      simpa using List.all_eq_true.mp hall
    have hfirst : ∀ c ∈ delayWord ++ [d], Text.isLineEnd c = false := by
      simpa [or_imp, forall_and] using ⟨hword, hdigit⟩
    have hsecond : ∀ c ∈ delayWord ++ [' ', d], Text.isLineEnd c = false := by
      have hblank : Text.isLineEnd ' ' = false := by decide
      simpa [or_imp, forall_and] using ⟨hword, hblank, hdigit⟩
    have hsplit : delayWord ++ d :: t = (delayWord ++ [d]) ++ t := by simp
    have hsplit' : delayWord ++ ' ' :: d :: t' = (delayWord ++ [' ', d]) ++ t' := by simp
    rw [hsplit, hsplit', Text.linesFrom_append hfirst, Text.linesFrom_append hsecond]
    refine ih _ _ ?_ _
    rw [hreverse, hreverse]
    exact hline.append (.gap hd .nil)

/-- Cutting into lines. -/
theorem lines (h : Gapped t t') : List.Forall₂ Gapped (Text.lines t) (Text.lines t') :=
  linesFrom [] [] .nil false h

/-- A text begins with the same plain words. -/
theorem prefix_iff {w : Text} (hw : ∀ c ∈ w, isPlain c = true) (h : Gapped t t') :
    w <+: t' ↔ w <+: t := by
  induction h generalizing w with
  | nil => rfl
  | cons c _ ih =>
    cases w with
    | nil => simp
    | cons e w =>
      rw [List.cons_prefix_cons, List.cons_prefix_cons,
        ih fun c hc ↦ hw c (List.mem_cons_of_mem e hc)]
  | @gap d hd t t' _ _ =>
    by_cases hshort : w <+: delayWord
    · exact iff_of_true (hshort.trans (List.prefix_append _ _))
        (hshort.trans (List.prefix_append _ _))
    · -- neither a blank nor a digit continues the word
      have hnot : ∀ c u, isPlain c = false → ¬ w <+: delayWord ++ c :: u := by
        intro c u hc hstart
        rw [Text.prefix_append_iff _ _ hshort] at hstart
        obtain ⟨v, hne, rfl, hv⟩ := hstart
        obtain ⟨e, v, rfl⟩ := List.exists_cons_of_ne_nil hne
        obtain rfl := (List.cons_prefix_cons.mp hv).1
        rw [hw e (by simp)] at hc
        cases hc
      refine iff_of_false (hnot _ _ (by decide)) (hnot _ _ ?_)
      rw [isPlain, hd, Bool.not_true, Bool.and_false]

/-- A word without `DELAY` is still the same word. -/
theorem eq_iff {w : Text} (hw : ¬ delayWord <:+: w) (h : Gapped t t') : t' = w ↔ t = w := by
  rcases h.eq_or with rfl | ⟨⟨d, -, hoccurs⟩, hword⟩
  · rfl
  · refine iff_of_false (fun he ↦ hw (he ▸ hword)) fun he ↦ hw ?_
    rw [← he]
    exact (List.prefix_append delayWord [d]).isInfix.trans hoccurs

end Gapped

/-- A script and the same script with blanks after `DELAY`. -/
theorem gapped_spaceDelays (t : Text) : Gapped t (spaceDelays t) := by
  induction t using delay_induction with
  | nil => exact .nil
  | cons c t hno ih =>
    rw [spaceDelays_cons hno]
    exact .cons c ih
  | delay t ih =>
    rw [spaceDelays_delay]
    cases t with
    | nil => exact (Gapped.refl delayWord).append .nil
    | cons d t =>
      cases hd : Text.isDecimal d with
      | false =>
        rw [gap_of_head? (by simpa using hd)]
        exact (Gapped.refl delayWord).append ih
      | true =>
        have hfirst : ¬ delayWord <+: d :: t := by
          intro hstart
          obtain rfl := (List.cons_prefix_cons.mp hstart).1
          cases hd
        rw [gap_of_isDecimal hd, spaceDelays_cons hfirst]
        rw [spaceDelays_cons hfirst] at ih
        rcases ih.of_cons with ⟨u', hu, hrest⟩ | ⟨e, u, u', -, hword, -⟩
        · obtain rfl := (List.cons.inj hu).2
          exact .gap hd hrest
        · exact absurd ⟨e :: u, hword.symm⟩ hfirst

end Broker

end Deskhand
