import Deskhand.Memory.Preferences
import Deskhand.Proofs.MarkedNumbers
import Deskhand.Proofs.Recovery

/-!
# When a request names one delay

A correction names its delay in a stretch of a line: from the word "delay" over the first number
behind it to the next "ms", or from a number to the next "millisecond". A text is cut into such
stretches from left to right, and the number of the last one counts. The delay that the same text
prefers is its last marked number. The two are the same exactly if these two numbers are, as they are
in a text with one number; only then does an exchange never add two delays to what a user is known to
prefer.
-/

namespace Deskhand

namespace Text

variable {part t : Text}

/-- A position is that of the first occurrence. -/
theorem exists_of_position? (hne : part ≠ []) {i : Nat} (h : position? part t = some i) :
    ∃ before after, t = before ++ (part ++ after) ∧ i = before.length ∧ ¬ part <:+: before := by
  unfold position? at h
  suffices hfind : ∀ offset, findFrom part offset t = some i →
      ∃ before after, t = before ++ (part ++ after) ∧ i = offset + before.length ∧
        ¬ part <:+: before by
    simpa using hfind 0 h
  clear h
  induction t with
  | nil =>
    intro offset h
    rw [findFrom, if_neg (by simpa using hne)] at h
    cases h
  | cons c t ih =>
    intro offset h
    rw [findFrom] at h
    split at h
    · next hstart =>
      cases h
      obtain ⟨after, hafter⟩ := List.isPrefixOf_iff_prefix.mp hstart
      exact ⟨[], after, hafter.symm, rfl, fun hin ↦ hne (List.infix_nil.mp hin)⟩
    · next hstart =>
      obtain ⟨before, after, rfl, rfl, hbefore⟩ := ih _ h
      refine ⟨c :: before, after, rfl, by rw [List.length_cons]; omega, fun hin ↦ ?_⟩
      rcases List.infix_cons_iff.mp hin with hpre | hin
      · refine hstart (List.isPrefixOf_iff_prefix.mpr (hpre.trans ?_))
        exact List.prefix_append (c :: before) (part ++ after)
      · exact hbefore hin

end Text

namespace Request

open Text (Unbordered isDecimal position? scanFrom)

variable {mark t u n : Text}

/-! ### Stretches -/

/-- What stands between a number and the mark behind it: it stays on the line, begins with no digit,
and does not hold the mark. -/
structure Between (mark between : Text) : Prop where
  line : '\n' ∉ between
  head : ∀ c ∈ between.head?, isDecimal c = false
  unmarked : ¬ mark <:+: between

/-- A stretch of a line that names a delay, and its number. -/
inductive Stretch : Text → Text → Prop where
  /-- The word "delay", then the first number behind it, then the first "ms" behind that. -/
  | word {gap n between : Text} (hgap : ∀ c ∈ gap, c ≠ '\n' ∧ isDecimal c = false) (hn : Digits n)
    (hb : Between "ms" between) :
    Stretch ("delay".toList ++ (gap ++ (n ++ (between ++ "ms".toList)))) n
  /-- A number, then the first "millisecond" behind it. -/
  | number {n between : Text} (hn : Digits n) (hb : Between "millisecond" between) :
    Stretch (n ++ (between ++ "millisecond".toList)) n

/-- A text is cut from left to right into stretches, which have these numbers, and characters at
which no stretch begins. -/
inductive Cut : Text → List Text → Prop where
  | nil : Cut [] []
  | pass {c : Char} {t : Text} {ns : List Text} (h : ∀ s n, Stretch s n → ¬ s <+: c :: t)
    (rest : Cut t ns) : Cut (c :: t) ns
  | take {s t n : Text} {ns : List Text} (h : Stretch s n) (rest : Cut t ns) :
    Cut (s ++ t) (n :: ns)

/-- The number of the last stretch of a text. -/
def LastStretch (t n : Text) : Prop := ∃ ns, Cut t (ns ++ [n])

/-- A mark that ends a stretch. -/
structure IsMark (mark : Text) : Prop where
  ne_nil : mark ≠ []
  unbordered : Unbordered mark
  line : '\n' ∉ mark
  head : ∀ c ∈ mark.head?, isDecimal c = false

theorem isMark_ms : IsMark "ms".toList :=
  ⟨by decide, by unfold Unbordered; decide, by decide, by rintro c ⟨⟩; decide⟩

theorem isMark_millisecond : IsMark "millisecond".toList :=
  ⟨by decide, by unfold Unbordered; decide +kernel, by decide, by rintro c ⟨⟩; decide⟩

theorem lineOf_append {s : Text} (h : '\n' ∉ s) (t : Text) :
    Text.lineOf (s ++ t) = s ++ Text.lineOf t := by
  refine List.takeWhile_append_of_pos fun c hc ↦ ?_
  have hne : c ≠ '\n' := fun he ↦ h (he ▸ hc)
  simpa using hne

private theorem Between.head_append {between : Text} (hb : Between mark between) (hm : IsMark mark)
    (rest : Text) : ∀ c ∈ (between ++ (mark ++ rest)).head?, isDecimal c = false := by
  cases between with
  | nil =>
    obtain ⟨d, mark, rfl⟩ := List.exists_cons_of_ne_nil hm.ne_nil
    exact hm.head
  | cons d between => exact hb.head

/-- A number with a mark behind it is found where it begins. -/
theorem numberBefore?_append {between : Text} (hm : IsMark mark) (hn : Digits n)
    (hb : Between mark between) (rest : Text) :
    numberBefore? mark (n ++ (between ++ (mark ++ rest))) =
      some (n, n.length + between.length + mark.length) := by
  have hdigits := Text.takeWhile_append_of_stop hn.decimal (hb.head_append hm rest)
  have hposition : position? mark (Text.lineOf (between ++ (mark ++ rest))) =
      some between.length := by
    rw [lineOf_append hb.line, lineOf_append hm.line]
    exact Text.position?_append hm.unbordered hm.ne_nil hb.unmarked _
  simp only [numberBefore?, Text.spanDigits, List.span_eq_takeWhile_dropWhile, hdigits, hposition]
  simp [hn.ne_nil]

/-- What is found in front of a mark is a number. -/
theorem of_numberBefore?_eq_some {k : Nat} (hm : IsMark mark)
    (h : numberBefore? mark t = some (n, k)) :
    ∃ between rest, Digits n ∧ Between mark between ∧ t = n ++ (between ++ (mark ++ rest)) ∧
      k = n.length + between.length + mark.length := by
  have hsplit := List.takeWhile_append_dropWhile (p := isDecimal) (l := t)
  have hstop : ∀ c ∈ (t.dropWhile isDecimal).head?, isDecimal c = false :=
    fun c hc ↦ Text.head?_dropWhile hc
  simp only [numberBefore?, Text.spanDigits, List.span_eq_takeWhile_dropWhile] at h
  split at h
  · cases h
  · next hne =>
    obtain ⟨i, hi, hfound⟩ := Option.map_eq_some_iff.mp h
    cases hfound
    generalize t.dropWhile isDecimal = body at hsplit hstop hi ⊢
    obtain ⟨between, after, hline, rfl, hunmarked⟩ := Text.exists_of_position? hm.ne_nil hi
    have hbody : Text.lineOf body ++ body.dropWhile (· != '\n') = body :=
      List.takeWhile_append_dropWhile
    rw [hline, List.append_assoc, List.append_assoc] at hbody
    refine ⟨between, after ++ body.dropWhile (· != '\n'), ⟨by simpa using hne, ?_⟩,
      ⟨?_, ?_, hunmarked⟩, ?_, rfl⟩
    · exact fun c hc ↦ List.mem_takeWhile_imp hc
    · intro hmem
      have hmem : '\n' ∈ Text.lineOf body := by
        rw [hline]
        exact List.mem_append_left _ hmem
      simpa using List.mem_takeWhile_imp hmem
    · intro c hc
      refine hstop c ?_
      rw [← hbody, List.head?_append, Option.mem_def.mp hc]
      rfl
    · rw [hbody, hsplit]

/-- A number between the word "delay" and "ms" is found where the word begins. -/
theorem delayInMs?_append {gap between : Text} (hgap : ∀ c ∈ gap, c ≠ '\n' ∧ isDecimal c = false)
    (hn : Digits n) (hb : Between "ms" between) (rest : Text) :
    delayInMs? ("delay".toList ++ (gap ++ (n ++ (between ++ ("ms".toList ++ rest))))) =
      some (n, 5 + gap.length + (n.length + between.length + 2)) := by
  have hline : '\n' ∉ gap := fun h ↦ (hgap _ h).1 rfl
  have hdigitless : ∀ c ∈ gap, (!isDecimal c) = true := fun c hc ↦ by rw [(hgap c hc).2]; rfl
  have hstop (x : Text) : ∀ c ∈ (Text.lineOf (n ++ x)).head?, (!isDecimal c) = false := by
    obtain ⟨d, n, rfl⟩ := List.exists_cons_of_ne_nil hn.ne_nil
    have hd := hn.decimal d List.mem_cons_self
    have hne : d ≠ '\n' := by
      rintro rfl
      exact absurd hd (by decide)
    intro c hc
    rw [Text.lineOf, List.cons_append, List.takeWhile_cons_of_pos (by simpa using hne)] at hc
    cases hc
    rw [hd]
    rfl
  rw [delayInMs?, Text.after?_append]
  dsimp only
  rw [lineOf_append hline, (Text.takeWhile_append_of_stop hdigitless (hstop _)).1, List.drop_left,
    numberBefore?_append isMark_ms hn hb]
  rfl

/-- What is found between the word "delay" and "ms" is a number. -/
theorem of_delayInMs?_eq_some {k : Nat} (h : delayInMs? t = some (n, k)) :
    ∃ gap between rest, (∀ c ∈ gap, c ≠ '\n' ∧ isDecimal c = false) ∧ Digits n ∧
      Between "ms" between ∧
      t = "delay".toList ++ (gap ++ (n ++ (between ++ ("ms".toList ++ rest)))) ∧
      k = 5 + gap.length + (n.length + between.length + 2) := by
  rw [delayInMs?] at h
  split at h
  · cases h
  · next body hafter =>
    obtain ⟨found, hfound, hk⟩ := Option.map_eq_some_iff.mp h
    cases hk
    obtain ⟨between, rest, hn, hb, hbody, htaken⟩ :=
      of_numberBefore?_eq_some (n := found.1) isMark_ms hfound
    have hpre : (Text.lineOf body).takeWhile (!isDecimal ·) <+: body :=
      (List.takeWhile_prefix _).trans (List.takeWhile_prefix _)
    refine ⟨(Text.lineOf body).takeWhile (!isDecimal ·), between, rest, fun c hc ↦ ⟨?_, ?_⟩, hn, hb,
      ?_, ?_⟩
    · have hline := List.mem_takeWhile_imp ((List.takeWhile_prefix _).subset hc)
      simpa using hline
    · simpa using List.mem_takeWhile_imp hc
    · rw [← hbody, List.prefix_iff_eq_append.mp hpre]
      exact Text.eq_append_of_after? hafter
    · rw [htaken]
      rfl

private theorem Digits.delayInMs?_eq_none (hn : Digits n) (v : Text) : delayInMs?
    (n ++ v) = none := by
  obtain ⟨d, n, rfl⟩ := List.exists_cons_of_ne_nil hn.ne_nil
  cases hfound : delayInMs? (d :: n ++ v) with
  | none => rfl
  | some found =>
    obtain ⟨gap, between, rest, -, -, -, hsplit, -⟩ := of_delayInMs?_eq_some (n := found.1) hfound
    have hd : d = 'd' := (List.cons.inj hsplit).1
    exact absurd (hd ▸ List.mem_cons_self) hn.not_mem

/-! ### Cutting into stretches -/

/-- What is looked for at each place. -/
def findCorrected (t : Text) : Option (Text × Nat) :=
  (delayInMs? t).or (numberBefore? "millisecond" t)

/-- A stretch is found where it begins. -/
theorem Stretch.findCorrected_append {s : Text} (h : Stretch s n) (t : Text) :
    findCorrected (s ++ t) = some (n, s.length) := by
  cases h with
  | word hgap hn hb =>
    simp only [List.append_assoc]
    rw [findCorrected, delayInMs?_append hgap hn hb, Option.some_or]
    simp
    omega
  | number hn hb =>
    simp only [List.append_assoc]
    rw [findCorrected, hn.delayInMs?_eq_none, Option.none_or,
      numberBefore?_append isMark_millisecond hn hb]
    simp only [List.length_append]
    rw [Nat.add_assoc]

/-- What is found at a place is a stretch that begins there. -/
theorem exists_stretch {k : Nat} (h : findCorrected t = some (n, k)) :
    ∃ s rest, t = s ++ rest ∧ k = s.length ∧ Stretch s n := by
  rcases Option.or_eq_some_iff.mp h with hword | ⟨-, hnumber⟩
  · obtain ⟨gap, between, rest, hgap, hn, hb, rfl, rfl⟩ := of_delayInMs?_eq_some hword
    refine ⟨_, rest, ?_, ?_, .word hgap hn hb⟩
    · simp only [List.append_assoc]
    · simp
      omega
  · obtain ⟨between, rest, hn, hb, rfl, rfl⟩ := of_numberBefore?_eq_some isMark_millisecond hnumber
    refine ⟨_, rest, ?_, ?_, .number hn hb⟩
    · simp only [List.append_assoc]
    · simp only [List.length_append]
      omega

theorem Stretch.ne_nil {s : Text} (h : Stretch s n) : s ≠ [] := by
  cases h with
  | word => exact List.append_ne_nil_of_left_ne_nil (by decide) _
  | number hn => exact List.append_ne_nil_of_left_ne_nil hn.ne_nil _

/-- A scan cuts a text into stretches. -/
theorem cut_scanFrom (u t : Text) : Cut t (scanFrom (fun _ ↦ findCorrected) u.getLast? 0 t) := by
  induction hk : t.length using Nat.strong_induction_on generalizing u t with
  | _ k ih =>
    subst hk
    cases hfind : findCorrected t with
    | none =>
      cases t with
      | nil => exact .nil
      | cons c t =>
        rw [Text.scanFrom_pass hfind]
        refine .pass (fun s n hs ↦ ?_) (ih t.length (Nat.lt_succ_self _) _ _ rfl)
        rintro ⟨rest, hrest⟩
        rw [← hrest, hs.findCorrected_append] at hfind
        cases hfind
    | some found =>
      obtain ⟨s, rest, rfl, hlength, hs⟩ := exists_stretch (n := found.1) hfind
      have hpos := List.length_pos_iff.mpr hs.ne_nil
      rw [Text.scanFrom_take hs.ne_nil (by rw [hfind, ← hlength])]
      exact .take hs (ih rest.length (by rw [List.length_append]; omega) _ _ rfl)

/-- However a text is cut into stretches, a scan finds their numbers. -/
theorem Cut.scanFrom_eq {ns : List Text} (h : Cut t ns) (u : Text) :
    scanFrom (fun _ ↦ findCorrected) u.getLast? 0 t = ns := by
  induction h generalizing u with
  | nil => rfl
  | @pass c t ns hno _ ih =>
    have hnone : findCorrected (c :: t) = none := by
      cases hfind : findCorrected (c :: t) with
      | none => rfl
      | some found =>
        obtain ⟨s, rest, hsplit, -, hs⟩ := exists_stretch (n := found.1) hfind
        exact absurd ⟨rest, hsplit.symm⟩ (hno s _ hs)
    rw [Text.scanFrom_pass hnone]
    exact ih _
  | take hs _ ih =>
    rw [Text.scanFrom_take hs.ne_nil (hs.findCorrected_append _), ih]

private theorem getLast?_correctedDelays (t n : Text) :
    (correctedDelays t).getLast? = some n ↔ LastStretch t n := by
  have hcut : Cut t (correctedDelays t) := cut_scanFrom [] t
  rw [List.getLast?_eq_some_iff]
  constructor
  · rintro ⟨ns, hns⟩
    exact ⟨ns, hns ▸ hcut⟩
  · rintro ⟨ns, hns⟩
    exact ⟨ns, hns.scanFrom_eq []⟩

/-! ### The numbers of stretches -/

/-- A whole number that stands in a text. -/
def HasNumber (t n : Text) : Prop := ∃ u v, t = u ++ (n ++ v) ∧ IsNumber u n v

/-- No number is cut between two texts: behind a digit, no stretch begins with a digit. -/
def Whole (u t : Text) : Prop :=
  ∀ c ∈ u.getLast?, isDecimal c = true → ∀ s n, Stretch s n → s <+: t →
    ∀ d ∈ s.head?, isDecimal d = false

/-- A stretch that begins with a digit may begin with one digit more. -/
theorem Stretch.cons {s : Text} {c d : Char} (h : Stretch s n) (hd : d ∈ s.head?)
    (hdigit : isDecimal d = true) (hc : isDecimal c = true) : ∃ n', Stretch (c :: s) n' := by
  cases h with
  | word =>
    cases hd
    exact absurd hdigit (by decide)
  | @number n between hn hb =>
    exact ⟨c :: n, .number ⟨List.cons_ne_nil c n, List.forall_mem_cons.mpr ⟨hc, hn.decimal⟩⟩ hb⟩

/-- No stretch ends with a digit. -/
theorem Stretch.getLast? {s : Text} (h : Stretch s n) :
    ∀ c ∈ (u ++ s).getLast?, isDecimal c = false := by
  intro c hc
  cases h with
  | word =>
    simp only [← List.append_assoc, List.getLast?_append] at hc
    cases hc
    decide
  | number =>
    simp only [← List.append_assoc, List.getLast?_append] at hc
    cases hc
    decide

/-- The number of a stretch is a whole number of the text, if no digit stands in front of the digits
that it may begin with. -/
theorem Stretch.isNumber {s : Text} (h : Stretch s n)
    (hu : ∀ c ∈ u.getLast?, isDecimal c = true → ∀ d ∈ s.head?, isDecimal d = false) (t : Text) :
    ∃ w v, s ++ t = w ++ (n ++ v) ∧ IsNumber (u ++ w) n v := by
  cases h with
  | @word gap n between hgap hn hb =>
    refine ⟨"delay".toList ++ gap, between ++ ("ms".toList ++ t), ?_, hn, ?_,
      hb.head_append isMark_ms t⟩
    · simp only [List.append_assoc]
    · intro c hc
      rw [← List.append_assoc, List.getLast?_append] at hc
      cases hlast : gap.getLast? with
      | none =>
        rw [hlast, List.getLast?_append] at hc
        cases hc
        decide
      | some d =>
        rw [hlast] at hc
        cases hc
        exact (hgap _ (List.mem_of_getLast? hlast)).2
  | @number n between hn hb =>
    refine ⟨[], between ++ ("millisecond".toList ++ t), ?_, hn, ?_,
      hb.head_append isMark_millisecond t⟩
    · simp only [List.append_assoc, List.nil_append]
    · intro c hc
      rw [List.append_nil] at hc
      obtain ⟨d, n, rfl⟩ := List.exists_cons_of_ne_nil hn.ne_nil
      cases hdigit : isDecimal c with
      | false => rfl
      | true =>
        have hd := hn.decimal d List.mem_cons_self
        rw [hu c hc hdigit d rfl] at hd
        cases hd

/-- The numbers of stretches are whole numbers of the text. -/
theorem Cut.isNumber {ns : List Text} (h : Cut t ns) (hu : Whole u t) :
    ∀ n ∈ ns, ∃ w v, t = w ++ (n ++ v) ∧ IsNumber (u ++ w) n v := by
  induction h generalizing u with
  | nil => exact List.forall_mem_nil _
  | @pass c t ns hno _ ih =>
    have hnext : Whole (u ++ [c]) t := by
      intro c' hc' hdigit s n hs hpre d hd
      rw [List.getLast?_concat] at hc'
      cases hc'
      cases hdecimal : isDecimal d with
      | false => rfl
      | true =>
        obtain ⟨n', hlonger⟩ := hs.cons hd hdecimal hdigit
        exact absurd (List.prefix_cons_inj c |>.mpr hpre) (hno _ _ hlonger)
    intro n hn
    obtain ⟨w, v, rfl, hnumber⟩ := ih hnext n hn
    rw [List.append_assoc, List.singleton_append] at hnumber
    exact ⟨c :: w, v, rfl, hnumber⟩
  | @take s t n ns hs _ ih =>
    refine List.forall_mem_cons.mpr ⟨?_, fun n' hn' ↦ ?_⟩
    · exact hs.isNumber (fun c hc hdigit ↦ hu c hc hdigit s n hs (List.prefix_append s t)) t
    · have hnext : Whole (u ++ s) t := by
        intro c hc hdigit
        rw [hs.getLast? c hc] at hdigit
        cases hdigit
      obtain ⟨w, v, rfl, hnumber⟩ := ih hnext n' hn'
      rw [List.append_assoc] at hnumber
      exact ⟨s ++ w, v, (List.append_assoc ..).symm, hnumber⟩

theorem LastStretch.hasNumber (h : LastStretch t n) : HasNumber t n := by
  obtain ⟨ns, hcut⟩ := h
  have hstart : Whole [] t := fun c hc ↦ by cases hc
  exact hcut.isNumber hstart n (List.mem_append_right ns List.mem_cons_self)

theorem LastMarked.hasNumber (h : LastMarked t n) : HasNumber t n := by
  obtain ⟨u, v, hm, -⟩ := h
  exact ⟨u, v, hm.split, hm.number⟩

/-! ### The delays of a request -/

private theorem corrections_delay_iff {request d : Text} : (corrections request).delay = some d ↔
    ∃ n, LastStretch (Text.lower request) n ∧ Preferences.delayCommand n = d := by
  simp only [corrections, Option.map_eq_some_iff, getLast?_correctedDelays]
  rfl

private theorem requirements_delay_iff {request p : Text} :
    (requirements request).delay = some p ↔ LastMarked (Text.lower request) p :=
  getLast?_preferredDelays (Text.lower request) p

theorem delayCommand_inj {m : Text} :
    Preferences.delayCommand n = Preferences.delayCommand m ↔ n = m :=
  List.append_right_inj _

theorem delayCommand_ne_nil (n : Text) : Preferences.delayCommand n ≠ [] :=
  List.append_ne_nil_of_left_ne_nil (by decide) n

private theorem of_make {request action : Text} {response output : Json} {e : Exchange}
    (he : Exchange.make request action response output = .ok e) :
    e.corrections = corrections request ∧ e.requirements = requirements request := by
  obtain ⟨responded, -, he⟩ := exists_of_bind_eq_ok he
  obtain ⟨script, -, he⟩ := exists_of_bind_eq_ok he
  cases he
  exact ⟨rfl, rfl⟩

section Delays

open Preferences (addNew delayCommand)

private theorem exists_addNew (items : List Text) (d : Text) :
    ∃ new, addNew (addNew items (some d)) (some d) = items ++ new ∧ new.length ≤ 1 := by
  by_cases hd : d.isEmpty || items.contains d
  · have hsame : addNew items (some d) = items := if_pos hd
    rw [hsame, hsame]
    exact ⟨[], (List.append_nil items).symm, Nat.zero_le 1⟩
  · have hmore : addNew items (some d) = items ++ [d] := if_neg hd
    have hlisted : d.isEmpty || (items ++ [d]).contains d := by simp
    rw [hmore]
    exact ⟨[d], if_pos hlisted, le_rfl⟩

private theorem addNew_two {d d' : Text} (hd : d ≠ []) (hd' : d' ≠ []) (hne : d ≠ d') :
    addNew (addNew [] (some d)) (some d') = [d, d'] := by
  have hfirst : addNew [] (some d) = [d] := by simp [addNew, hd]
  rw [hfirst]
  simp [addNew, hd', hne.symm]

private theorem learn_delays {request d p action : Text} {response output : Json} {e : Exchange}
    (hd : (corrections request).delay = some d) (hp : (requirements request).delay = some p)
    (he : Exchange.make request action response output = .ok e) (known : Preferences) :
    (known.learn e).delays = addNew (addNew known.delays (some d)) (some (delayCommand p)) := by
  obtain ⟨hcorrections, hrequirements⟩ := of_make he
  obtain ⟨u, v, hmarked, -⟩ := requirements_delay_iff.mp hp
  have hne : (!p.isEmpty) = true := by simpa using hmarked.number.digits.ne_nil
  rw [Preferences.learn, hcorrections, hrequirements, hd, hp, Option.filter_some, if_pos hne]
  rfl

/-- The delay that a request corrects (`extract_corrections_and_feedback`) is the number of its last
stretch, and the one that it prefers (`extract_specific_requirements`) is its last marked number. If it
does both, the two delays are the same exactly if these numbers are; so they are in a text with one
number, written once or more often. Exactly then an exchange with the request never adds two delays to
those that are known. -/
theorem delays_agree_iff (request : Text) :
    (∀ d, (corrections request).delay = some d ↔
      ∃ n, LastStretch (Text.lower request) n ∧ delayCommand n = d) ∧
    (∀ p, (requirements request).delay = some p ↔ LastMarked (Text.lower request) p) ∧
    ∀ d p, (corrections request).delay = some d → (requirements request).delay = some p →
      (d = delayCommand p ↔
        ∃ n, LastStretch (Text.lower request) n ∧ LastMarked (Text.lower request) n) ∧
      ((∀ n m, HasNumber (Text.lower request) n → HasNumber (Text.lower request) m → n = m) →
        d = delayCommand p) ∧
      ∀ action response output e, Exchange.make request action response output = .ok e →
        ((∀ known : Preferences, ∃ new, (known.learn e).delays = known.delays ++ new ∧
            new.length ≤ 1) ↔
          d = delayCommand p) := by
  refine ⟨fun d ↦ corrections_delay_iff, fun p ↦ requirements_delay_iff, fun d p hd hp ↦ ?_⟩
  have hmarked := requirements_delay_iff.mp hp
  obtain ⟨n, hstretch, rfl⟩ := corrections_delay_iff.mp hd
  refine ⟨⟨fun heq ↦ ?_, ?_⟩, fun hone ↦ ?_, fun action response output e he ↦ ⟨fun hadds ↦ ?_, ?_⟩⟩
  · rw [delayCommand_inj] at heq
    exact ⟨n, hstretch, heq ▸ hmarked⟩
  · rintro ⟨m, hm, hm'⟩
    have hfound := (getLast?_correctedDelays _ m).mpr hm
    rw [(getLast?_correctedDelays _ n).mpr hstretch] at hfound
    cases hfound
    rw [hm'.eq hmarked]
  · rw [hone n p hstretch.hasNumber hmarked.hasNumber]
  · by_contra hne
    obtain ⟨new, hnew, hlength⟩ := hadds {}
    rw [learn_delays hd hp he, addNew_two (delayCommand_ne_nil n) (delayCommand_ne_nil p) hne,
      List.nil_append] at hnew
    rw [← hnew] at hlength
    exact absurd hlength (Nat.not_succ_le_self 1)
  · intro heq known
    rw [learn_delays hd hp he, ← heq]
    exact exists_addNew known.delays _

/-- A request with three numbers, of which two are delays. -/
def newDelay : Text := "The DELAY of 500 ms is wrong: open 3 tabs, then delay 2000ms"

/-- Both delays of a request with several numbers are the same: it ends with a stretch whose number
is marked. -/
theorem delays_agree_iff_newDelay :
    (corrections newDelay).delay = some (delayCommand "2000") ∧
      (requirements newDelay).delay = some "2000" ∧
      ∃ n, LastStretch (Text.lower newDelay) n ∧ LastMarked (Text.lower newDelay) n := by
  have hd : (corrections newDelay).delay = some (delayCommand "2000") := by decide +kernel
  have hp : (requirements newDelay).delay = some "2000" := by decide +kernel
  exact ⟨hd, hp, ((delays_agree_iff newDelay).2.2 _ _ hd hp).1.mp rfl⟩

/-- A request with two numbers before "ms". -/
def twoDelays : Text := "delay 100 then 200 ms"

/-- The stretch of a request ends with another number than it names, so the two delays differ and an
exchange adds both. -/
theorem delays_of_one_stretch_differ :
    (corrections twoDelays).delay = some (delayCommand "100") ∧
      (requirements twoDelays).delay = some "200" ∧ "100".toList ≠ "200".toList ∧
      ((Exchange.make twoDelays [] (.text []) .null).toOption.map
        fun e ↦ (Preferences.ofExchanges [e]).delays) =
        some [delayCommand "100", delayCommand "200"] := by
  refine ⟨?_, ?_, ?_, ?_⟩ <;> decide +kernel

end Delays

end Request

end Deskhand
