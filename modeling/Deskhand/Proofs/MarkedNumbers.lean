import Deskhand.Proofs.JsonReading
import Deskhand.Proofs.Spacing
import Deskhand.Request.Delay

/-!
# The preferred delay is the last marked number

A number of a text is marked as a delay if "ms" stands right behind it or the word "delay" right in
front of it, blanks aside. Looking for such numbers from left to right passes over none of them:
what is taken for one number holds no other one, and a word "delay" that was passed over has no
number behind it. So the delay that a request prefers is its last marked number.
-/

namespace Deskhand

namespace Text

variable {α : Type} {find : Option Char → Text → Option (α × Nat)} {p : Char → Bool}

/-! ### Going on with a scan -/

/-- Where nothing is found, a scan goes on with the next character. -/
theorem scanFrom_pass {u t : Text} {c : Char} (h : find u.getLast? (c :: t) = none) :
    scanFrom find u.getLast? 0 (c :: t) = scanFrom find (u ++ [c]).getLast? 0 t := by
  rw [scanFrom, h, List.getLast?_concat]

theorem scanFrom_skip (s t : Text) (previous : Option Char) :
    scanFrom find previous s.length (s ++ t) = scanFrom find (s.getLast?.or previous) 0 t := by
  induction s generalizing previous with
  | nil => rfl
  | cons c s ih =>
    rw [List.cons_append, List.length_cons, scanFrom, ih, List.getLast?_cons]
    cases s.getLast? <;> rfl

/-- Where something is found, a scan goes on behind it. -/
theorem scanFrom_take {u s t : Text} {a : α} (hs : s ≠ [])
    (h : find u.getLast? (s ++ t) = some (a, s.length)) :
    scanFrom find u.getLast? 0 (s ++ t) = a :: scanFrom find (u ++ s).getLast? 0 t := by
  obtain ⟨c, s, rfl⟩ := List.exists_cons_of_ne_nil hs
  rw [List.cons_append] at h ⊢
  rw [scanFrom, h]
  dsimp only
  rw [List.length_cons, Nat.add_sub_cancel, scanFrom_skip, List.getLast?_append,
    List.getLast?_cons]
  cases s.getLast? <;> rfl

/-! ### Runs of characters -/

theorem takeWhile_append_of_stop {n v : Text} (hn : ∀ c ∈ n, p c = true)
    (hv : ∀ c ∈ v.head?, p c = false) :
    (n ++ v).takeWhile p = n ∧ (n ++ v).dropWhile p = v := by
  rw [List.takeWhile_append_of_pos hn, List.dropWhile_append_of_pos hn]
  cases v with
  | nil => exact ⟨List.append_nil n, rfl⟩
  | cons c v =>
    have hc : p c = false := hv c rfl
    simp [hc]

theorem head?_dropWhile {t : Text} {c : Char} (h : c ∈ (t.dropWhile p).head?) : p c = false := by
  have hnot := List.head?_dropWhile_not p t
  rw [Option.mem_def.mp h] at hnot
  simpa using hnot

theorem takeWhile_append_drop (p : Char → Bool) (t : Text) :
    t.takeWhile p ++ t.drop (t.takeWhile p).length = t :=
  List.prefix_iff_eq_append.mp (List.takeWhile_prefix p)

theorem after?_append (start rest : Text) : after? start (start ++ rest) = some rest := by
  rw [after?, if_pos (List.isPrefixOf_iff_prefix.mpr (List.prefix_append start rest)),
    List.drop_left]

end Text

namespace Request

open Text (isBlank isDecimal isWord scanFrom)

/-! ### Numbers and their marks -/

/-- One or more digits. -/
structure Digits (n : Text) : Prop where
  ne_nil : n ≠ []
  decimal : ∀ c ∈ n, isDecimal c = true

/-- The digits between two parts of a text are a whole number: no digit stands next to them. -/
structure IsNumber (u n v : Text) : Prop where
  digits : Digits n
  left : ∀ c ∈ u.getLast?, isDecimal c = false
  right : ∀ c ∈ v.head?, isDecimal c = false

/-- A text begins with "ms", blanks aside. -/
def UnitFollows (v : Text) : Prop :=
  ∃ blanks rest, (∀ c ∈ blanks, isBlank c = true) ∧ v = blanks ++ ("ms".toList ++ rest)

/-- A text ends with the word "delay" and blanks; the word begins a word. -/
def WordPrecedes (u : Text) : Prop :=
  ∃ before blanks, (∀ c ∈ before.getLast?, isWord c = false) ∧ blanks ≠ [] ∧
    (∀ c ∈ blanks, isBlank c = true) ∧ u = before ++ ("delay".toList ++ blanks)

/-- A number of a text that is marked as a delay. -/
structure Marked (t u n v : Text) : Prop where
  split : t = u ++ (n ++ v)
  number : IsNumber u n v
  mark : UnitFollows v ∨ WordPrecedes u

/-- The last number of a text that is marked as a delay. -/
def LastMarked (t n : Text) : Prop :=
  ∃ u v, Marked t u n v ∧ ∀ u' n' v', Marked t u' n' v' → u'.length ≤ u.length

variable {t u n v : Text}

private theorem IsNumber.eq_of_append {u' n' v' : Text} (h : IsNumber u n v)
    (h' : IsNumber u' n' v') (heq : u ++ (n ++ v) = u' ++ (n' ++ v'))
    (hlength : u.length = u'.length) : n = n' := by
  have hrest : n ++ v = n' ++ v' := (List.append_inj heq hlength).2
  calc
    n = (n ++ v).takeWhile isDecimal :=
      (Text.takeWhile_append_of_stop h.digits.decimal h.right).1.symm
    _ = (n' ++ v').takeWhile isDecimal := by rw [hrest]
    _ = n' := (Text.takeWhile_append_of_stop h'.digits.decimal h'.right).1

/-- There is one last marked number at most. -/
theorem LastMarked.eq {n' : Text} (h : LastMarked t n) (h' : LastMarked t n') : n = n' := by
  obtain ⟨u, v, hm, hlast⟩ := h
  obtain ⟨u', v', hm', hlast'⟩ := h'
  have hlength : u.length = u'.length := Nat.le_antisymm (hlast' _ _ _ hm) (hlast _ _ _ hm')
  exact hm.number.eq_of_append hm'.number (hm.split.symm.trans hm'.split) hlength

/-! ### What is found at one place -/

theorem isDecimal_of_isBlank {c : Char} (h : isBlank c = true) : isDecimal c = false := by
  cases hd : isDecimal c with
  | false => rfl
  | true =>
    rw [Text.isBlank_of_isDecimal hd] at h
    cases h

theorem Digits.isBlank_head? (h : Digits n) (v : Text) :
    ∀ c ∈ (n ++ v).head?, isBlank c = false := by
  obtain ⟨d, n, rfl⟩ := List.exists_cons_of_ne_nil h.ne_nil
  rintro c ⟨⟩
  exact Text.isBlank_of_isDecimal (h.decimal d List.mem_cons_self)

private theorem isDecimal_of_unitFollows (h : UnitFollows v) :
    ∀ c ∈ v.head?, isDecimal c = false := by
  obtain ⟨blanks, rest, hblank, rfl⟩ := h
  cases blanks with
  | nil =>
    rintro c ⟨⟩
    decide
  | cons b blanks =>
    rintro c ⟨⟩
    exact isDecimal_of_isBlank (hblank b List.mem_cons_self)

/-- A number with "ms" behind it is found where it begins. -/
theorem msNumber?_append {blanks rest : Text} (hn : Digits n)
    (hb : ∀ c ∈ blanks, isBlank c = true) :
    msNumber? (n ++ (blanks ++ ("ms".toList ++ rest))) =
      some (n, n.length + blanks.length + 2) := by
  have hunit : ∀ c ∈ ("ms".toList ++ rest).head?, isBlank c = false := by
    rintro c ⟨⟩
    exact Text.isBlank_of_visible (by decide)
  have hdigits := Text.takeWhile_append_of_stop hn.decimal
    (isDecimal_of_unitFollows ⟨blanks, rest, hb, rfl⟩)
  have hblanks := (Text.takeWhile_append_of_stop hb hunit).1
  have hstart : Text.startsWith ("ms".toList ++ rest) "ms".toList = true :=
    List.isPrefixOf_iff_prefix.mpr (List.prefix_append _ _)
  simp only [msNumber?, Text.spanDigits, List.span_eq_takeWhile_dropWhile, hdigits, hblanks,
    List.drop_left, hstart]
  simp [hn.ne_nil]

/-- What is found in front of "ms" is a number. -/
theorem of_msNumber?_eq_some {k : Nat} (h : msNumber? t = some (n, k)) :
    ∃ blanks rest, Digits n ∧ (∀ c ∈ blanks, isBlank c = true) ∧
      t = n ++ (blanks ++ ("ms".toList ++ rest)) ∧ k = n.length + blanks.length + 2 := by
  have hsplit := List.takeWhile_append_dropWhile (p := isDecimal) (l := t)
  simp only [msNumber?, Text.spanDigits, List.span_eq_takeWhile_dropWhile] at h
  split at h
  · cases h
  · next hne =>
    split at h
    · next hstart =>
      cases h
      obtain ⟨rest, hrest⟩ := (Text.startsWith_iff _ _).mp hstart
      refine ⟨(t.dropWhile isDecimal).takeWhile isBlank, rest, ⟨by simpa using hne, ?_⟩, ?_, ?_,
        rfl⟩
      · exact fun c hc ↦ List.mem_takeWhile_imp hc
      · exact fun c hc ↦ List.mem_takeWhile_imp hc
      · rw [← hrest, Text.takeWhile_append_drop, hsplit]
    · cases h

private theorem msNumber?_eq_none (h : ∀ c ∈ t.head?, isDecimal c = false) :
    msNumber? t = none := by
  have hempty : t.takeWhile isDecimal = [] :=
    (Text.takeWhile_append_of_stop (n := []) (List.forall_mem_nil _) h).1
  simp [msNumber?, Text.spanDigits, List.span_eq_takeWhile_dropWhile, hempty]

/-- The word "delay" behind `before`, blanks, and a digit at the start of `after`. -/
structure WordAt (t before blanks after : Text) : Prop where
  split : t = before ++ ("delay".toList ++ (blanks ++ after))
  boundary : ∀ c ∈ before.getLast?, isWord c = false
  ne_nil : blanks ≠ []
  blank : ∀ c ∈ blanks, isBlank c = true
  digit : ∃ c ∈ after.head?, isDecimal c = true

theorem WordAt.isBlank_head? {before blanks after : Text} (h : WordAt t before blanks after) :
    ∀ c ∈ after.head?, isBlank c = false := by
  obtain ⟨d, hd, hdigit⟩ := h.digit
  intro c hc
  rw [Option.mem_def.mp hd] at hc
  cases hc
  exact Text.isBlank_of_isDecimal hdigit

/-- A number behind the word "delay" is found where the word begins. -/
theorem delayNumber?_append {blanks after : Text} (h : WordAt t u blanks after) :
    delayNumber? u.getLast? ("delay".toList ++ (blanks ++ after)) =
      some (after.takeWhile isDecimal, 5 + blanks.length + (after.takeWhile isDecimal).length) := by
  obtain ⟨d, hd, hdigit⟩ := h.digit
  have hboundary : (u.getLast?.map isWord).getD false = false := by
    cases hlast : u.getLast? with
    | none => rfl
    | some c => exact h.boundary c hlast
  have hblanks := (Text.takeWhile_append_of_stop h.blank h.isBlank_head?).1
  have hne : (after.takeWhile isDecimal).isEmpty = false := by
    cases after with
    | nil => cases hd
    | cons c after =>
      cases hd
      simp [hdigit]
  rw [delayNumber?, Text.after?_append]
  simp only [Text.spanDigits, List.span_eq_takeWhile_dropWhile, hblanks, List.drop_left, hboundary,
    hne]
  simp [h.ne_nil]

/-- What is found behind the word "delay" is a number. -/
theorem of_delayNumber?_eq_some {k : Nat} (h : delayNumber? u.getLast? t = some (n, k)) :
    ∃ blanks rest, WordAt (u ++ t) u blanks (n ++ rest) ∧ Digits n ∧
      (∀ c ∈ rest.head?, isDecimal c = false) ∧
      t = "delay".toList ++ (blanks ++ (n ++ rest)) ∧ k = 5 + blanks.length + n.length := by
  rw [delayNumber?] at h
  split at h
  · cases h
  · next rest hafter =>
    simp only [Text.spanDigits, List.span_eq_takeWhile_dropWhile] at h
    split at h
    · cases h
    · next hcond =>
      cases h
      simp only [Bool.or_eq_true, List.isEmpty_iff, not_or] at hcond
      obtain ⟨⟨hboundary, hne⟩, hdigits⟩ := hcond
      have hrest := Text.takeWhile_append_drop isBlank rest
      have hblank : ∀ c ∈ rest.takeWhile isBlank, isBlank c = true :=
        fun c hc ↦ List.mem_takeWhile_imp hc
      generalize rest.takeWhile isBlank = blanks at hne hdigits hrest hblank ⊢
      generalize rest.drop blanks.length = body at hdigits hrest ⊢
      have hbody := List.takeWhile_append_dropWhile (p := isDecimal) (l := body)
      have hn : Digits (body.takeWhile isDecimal) :=
        ⟨hdigits, fun c hc ↦ List.mem_takeWhile_imp hc⟩
      have hstop : ∀ c ∈ (body.dropWhile isDecimal).head?, isDecimal c = false :=
        fun c hc ↦ Text.head?_dropWhile hc
      have ht : t = "delay".toList ++
          (blanks ++ (body.takeWhile isDecimal ++ body.dropWhile isDecimal)) := by
        rw [hbody, hrest]
        exact Text.eq_append_of_after? hafter
      refine ⟨blanks, body.dropWhile isDecimal, ⟨congrArg (u ++ ·) ht, ?_, hne, hblank, ?_⟩, hn,
        hstop, ht, rfl⟩
      · intro c hc
        rw [Option.mem_def.mp hc] at hboundary
        simpa using hboundary
      · obtain ⟨d, n, hd⟩ := List.exists_cons_of_ne_nil hdigits
        refine ⟨d, by rw [hd]; rfl, hn.decimal d ?_⟩
        rw [hd]
        exact List.mem_cons_self

/-! ### Places within a part -/

/-- A character that stands in a part of a text, seen from the part. -/
theorem exists_split {s before rest : Text} {c : Char}
    (h : u ++ (s ++ t) = before ++ c :: rest) (hl : u.length ≤ before.length)
    (hr : before.length < u.length + s.length) :
    ∃ w s', before = u ++ w ∧ s = w ++ c :: s' := by
  have hu : u <+: before := by
    refine List.prefix_of_prefix_length_le (List.prefix_append u (s ++ t)) ?_ hl
    rw [h]
    exact List.prefix_append before (c :: rest)
  obtain ⟨w, rfl⟩ := hu
  rw [List.append_assoc] at h
  have hrest := List.append_cancel_left h
  rw [List.length_append] at hr
  have hw : w <+: s := by
    refine List.prefix_of_prefix_length_le ?_ (List.prefix_append s t) (by omega)
    rw [hrest]
    exact List.prefix_append w (c :: rest)
  obtain ⟨s', rfl⟩ := hw
  rw [List.append_assoc] at hrest
  have hnext := List.append_cancel_left hrest
  cases s' with
  | nil =>
    rw [List.append_nil] at hr
    omega
  | cons d s' =>
    cases hnext
    exact ⟨w, s', rfl, rfl⟩

/-- In a part with one number, a number that begins there begins no later than that one. -/
theorem length_le_of_split {a b w s' : Text} {c : Char} (hn : ∀ c ∈ n, isDecimal c = true)
    (hb : ∀ c ∈ b, isDecimal c = false) (hs : a ++ (n ++ b) = w ++ c :: s')
    (hc : isDecimal c = true) (hleft : ∀ d ∈ (u ++ w).getLast?, isDecimal d = false) :
    w.length ≤ a.length := by
  by_contra hlt
  have ha : a <+: w := by
    refine List.prefix_of_prefix_length_le (List.prefix_append a (n ++ b)) ?_ (by omega)
    rw [hs]
    exact List.prefix_append w (c :: s')
  obtain ⟨w, rfl⟩ := ha
  rw [List.append_assoc] at hs
  have hnext := List.append_cancel_left hs
  rcases List.append_eq_append_iff.mp hnext with ⟨x, rfl, hx⟩ | ⟨x, hx, -⟩
  · -- the digit would stand behind the number
    have hmem : c ∈ b := by
      rw [hx]
      exact List.mem_append_right x List.mem_cons_self
    rw [hb c hmem] at hc
    cases hc
  · -- a digit of the number would stand right before it
    have hne : w ≠ [] := by
      rintro rfl
      rw [List.append_nil] at hlt
      exact hlt le_rfl
    have hlast : (u ++ (a ++ w)).getLast? = some (w.getLast hne) := by
      rw [← List.append_assoc, List.getLast?_append, List.getLast?_eq_some_getLast hne]
      rfl
    have hdigit : isDecimal (w.getLast hne) = true := by
      apply hn
      rw [hx]
      exact List.mem_append_left x (List.getLast_mem hne)
    rw [hleft _ hlast] at hdigit
    cases hdigit

/-- In a part with one number, a marked number begins no later than that one. -/
theorem Marked.length_le {a b u' n' v' : Text} (h : Marked (u ++ ((a ++ (n ++ b)) ++ t)) u' n' v')
    (hn : Digits n) (hb : ∀ c ∈ b, isDecimal c = false)
    (hlt : u'.length < (u ++ (a ++ (n ++ b))).length) : u'.length ≤ (u ++ a).length := by
  rw [List.length_append] at hlt ⊢
  by_cases hle : u'.length ≤ u.length
  · omega
  · obtain ⟨c, n', rfl⟩ := List.exists_cons_of_ne_nil h.number.digits.ne_nil
    obtain ⟨w, s', rfl, hs⟩ := exists_split h.split (by omega) hlt
    have hw := length_le_of_split hn.decimal hb hs (h.number.digits.decimal c List.mem_cons_self)
      h.number.left
    rw [List.length_append]
    omega

/-! ### What has been passed over -/

/-- A scan has passed over `u` and goes on with `t`: no word "delay" that begins in `u` has its
number in `t`, and if a digit ends `u`, then no number with "ms" behind it begins `t`. -/
structure Passed (u t : Text) : Prop where
  word : ∀ before blanks after, WordAt (u ++ t) before blanks after → before.length < u.length →
    before.length + 5 + blanks.length < u.length
  digit : ∀ c ∈ u.getLast?, isDecimal c = true → msNumber? t = none

/-- What is looked for at each place. -/
def findPreferred (previous : Option Char) (t : Text) : Option (Text × Nat) :=
  (msNumber? t).or (delayNumber? previous t)

/-- Where nothing is found, no marked number begins. -/
theorem Passed.not_marked (hp : Passed u t) (hnone : findPreferred u.getLast? t = none) :
    ¬ Marked (u ++ t) u n v := by
  intro h
  obtain ⟨hms, -⟩ := Option.or_eq_none_iff.mp hnone
  have ht : t = n ++ v := List.append_cancel_left h.split
  rcases h.mark with ⟨blanks, rest, hblank, rfl⟩ | ⟨before, blanks, hboundary, hne, hblank, rfl⟩
  · rw [ht, msNumber?_append h.number.digits hblank] at hms
    cases hms
  · -- the word was passed over with its number still to come
    obtain ⟨d, n, rfl⟩ := List.exists_cons_of_ne_nil h.number.digits.ne_nil
    have hword : WordAt (before ++ ("delay".toList ++ blanks) ++ t) before blanks t := by
      refine ⟨by simp only [List.append_assoc], hboundary, hne, hblank, d, ?_, ?_⟩
      · rw [ht]
        rfl
      · exact h.number.digits.decimal d List.mem_cons_self
    have hlength : (before ++ ("delay".toList ++ blanks)).length =
        before.length + 5 + blanks.length := by
      rw [List.length_append, List.length_append, Nat.add_assoc]
      rfl
    have hlt := hp.word _ _ _ hword (by omega)
    omega

/-- Where nothing is found, one more character may be passed over. -/
theorem Passed.pass {c : Char} (hp : Passed u (c :: t))
    (hnone : findPreferred u.getLast? (c :: t) = none) : Passed (u ++ [c]) t := by
  obtain ⟨hms, hdelay⟩ := Option.or_eq_none_iff.mp hnone
  have hwhole : u ++ [c] ++ t = u ++ c :: t := by rw [List.append_assoc, List.singleton_append]
  refine ⟨fun before blanks after h hlt ↦ ?_, fun d hd hdigit ↦ ?_⟩
  · rw [hwhole] at h
    rw [List.length_append, List.length_singleton] at hlt ⊢
    by_cases hbefore : before.length < u.length
    · have := hp.word _ _ _ h hbefore
      omega
    · obtain ⟨rfl, hrest⟩ := List.append_inj h.split (by omega)
      rw [hrest, delayNumber?_append h] at hdelay
      cases hdelay
  · rw [List.getLast?_concat] at hd
    cases hd
    -- the digits behind a digit are part of its number
    cases hnext : msNumber? t with
    | none => rfl
    | some found =>
      obtain ⟨blanks, rest, hn, hblank, rfl, -⟩ := of_msNumber?_eq_some (n := found.1) hnext
      have hlonger : Digits (c :: found.1) :=
        ⟨List.cons_ne_nil _ _, List.forall_mem_cons.mpr ⟨hdigit, hn.decimal⟩⟩
      rw [← List.cons_append, msNumber?_append hlonger hblank] at hms
      cases hms

/-- A part may be passed over as a whole if the number of each word "delay" that begins in it does. -/
theorem Passed.take {s : Text} (hp : Passed u (s ++ t))
    (hword : ∀ w s' blanks after, s = w ++ 'd' :: s' →
      WordAt (u ++ (s ++ t)) (u ++ w) blanks after → w.length + 5 + blanks.length < s.length)
    (hdigit : ∀ c ∈ (u ++ s).getLast?, isDecimal c = true → msNumber? t = none) :
    Passed (u ++ s) t := by
  refine ⟨fun before blanks after h hlt ↦ ?_, hdigit⟩
  rw [List.append_assoc] at h
  rw [List.length_append] at hlt ⊢
  by_cases hbefore : before.length < u.length
  · have := hp.word _ _ _ h hbefore
    omega
  · obtain ⟨w, s', rfl, hs⟩ := exists_split h.split (by omega) hlt
    have := hword w s' blanks after hs h
    rw [List.length_append]
    omega

theorem Digits.not_mem (h : Digits n) : 'd' ∉ n := fun hd ↦ absurd (h.decimal _ hd) (by decide)

theorem not_mem_blanks {blanks : Text} (h : ∀ c ∈ blanks, isBlank c = true) : 'd' ∉ blanks := by
  intro hd
  have hblank := h _ hd
  rw [Text.isBlank_of_visible (by decide)] at hblank
  cases hblank

/-- What is found in front of "ms" may be passed over together with it. -/
theorem Passed.take_unit {blanks : Text} (hp : Passed u ((n ++ (blanks ++ "ms".toList)) ++ t))
    (hn : Digits n) (hb : ∀ c ∈ blanks, isBlank c = true) :
    Passed (u ++ (n ++ (blanks ++ "ms".toList))) t := by
  have hd : 'd' ∉ n ++ (blanks ++ "ms".toList) := by
    simp only [List.mem_append, not_or]
    exact ⟨hn.not_mem, not_mem_blanks hb, by decide⟩
  refine hp.take (fun w s' blanks' after hs _ ↦ ?_) (fun c hc hdigit ↦ ?_)
  · rw [hs] at hd
    exact absurd (List.mem_append_right w List.mem_cons_self) hd
  · rw [← List.append_assoc, ← List.append_assoc, List.getLast?_append] at hc
    cases hc
    exact absurd hdigit (by decide)

/-- What is found behind the word "delay" may be passed over together with it. -/
theorem Passed.take_word {blanks : Text}
    (hp : Passed u (("delay".toList ++ (blanks ++ n)) ++ t)) (hn : Digits n)
    (hb : ∀ c ∈ blanks, isBlank c = true) (hstop : ∀ c ∈ t.head?, isDecimal c = false) :
    Passed (u ++ ("delay".toList ++ (blanks ++ n))) t := by
  have hd : 'd' ∉ "elay".toList ++ (blanks ++ n) := by
    simp only [List.mem_append, not_or]
    exact ⟨by decide, not_mem_blanks hb, hn.not_mem⟩
  refine hp.take (fun w s' blanks' after hs h ↦ ?_) fun c hc hdigit ↦ msNumber?_eq_none hstop
  cases w with
  | cons c w =>
    have htail : "elay".toList ++ (blanks ++ n) = w ++ 'd' :: s' := (List.cons.inj hs).2
    rw [htail] at hd
    exact absurd (List.mem_append_right w List.mem_cons_self) hd
  | nil =>
    -- the blanks behind the word reach up to the number
    rw [List.append_nil] at h
    have hrest := List.append_cancel_left h.split
    rw [List.append_assoc, List.append_assoc] at hrest
    have hsame := List.append_cancel_left hrest
    have hlength : blanks.length = blanks'.length := by
      rw [← (Text.takeWhile_append_of_stop hb (hn.isBlank_head? t)).1, hsame,
        (Text.takeWhile_append_of_stop h.blank h.isBlank_head?).1]
    have hpos := List.length_pos_iff.mpr hn.ne_nil
    rw [List.length_append, List.length_append, ← hlength]
    change 0 + 5 + blanks.length < 5 + (blanks.length + n.length)
    omega

/-! ### The last marked number -/

/-- A part `s` of the text behind `u` is taken for the number `n`: it may be passed over, and `n` is
the last marked number that begins in it. -/
structure Taken (u s t n : Text) : Prop where
  ne_nil : s ≠ []
  passed : Passed (u ++ s) t
  marked : ∃ u' v', Marked (u ++ (s ++ t)) u' n v' ∧
    ∀ u'' n'' v'', Marked (u ++ (s ++ t)) u'' n'' v'' → u''.length < (u ++ s).length →
      u''.length ≤ u'.length

theorem Passed.taken_unit {blanks : Text} (hp : Passed u ((n ++ (blanks ++ "ms".toList)) ++ t))
    (hn : Digits n) (hb : ∀ c ∈ blanks, isBlank c = true) :
    Taken u (n ++ (blanks ++ "ms".toList)) t n := by
  have hunit : UnitFollows (blanks ++ "ms".toList ++ t) :=
    ⟨blanks, t, hb, List.append_assoc ..⟩
  have hleft : ∀ c ∈ u.getLast?, isDecimal c = false := by
    intro c hc
    cases hdigit : isDecimal c with
    | false => rfl
    | true =>
      have hnone := hp.digit c hc hdigit
      rw [List.append_assoc, List.append_assoc, msNumber?_append hn hb] at hnone
      cases hnone
  have hclear : ∀ c ∈ blanks ++ "ms".toList, isDecimal c = false := by
    intro c hc
    rcases List.mem_append.mp hc with hc | hc
    · exact isDecimal_of_isBlank (hb c hc)
    · have hunit : c = 'm' ∨ c = 's' := by simpa using hc
      rcases hunit with rfl | rfl <;> decide
  refine ⟨List.append_ne_nil_of_left_ne_nil hn.ne_nil _, hp.take_unit hn hb, u,
    blanks ++ "ms".toList ++ t, ⟨?_, ⟨hn, hleft, isDecimal_of_unitFollows hunit⟩, .inl hunit⟩, ?_⟩
  · rw [List.append_assoc n]
  · intro u' n' v' h hlt
    simpa using Marked.length_le (a := []) h hn hclear hlt

theorem Passed.taken_word {blanks : Text} (hp : Passed u (("delay".toList ++ (blanks ++ n)) ++ t))
    (hn : Digits n) (hb : ∀ c ∈ blanks, isBlank c = true) (hne : blanks ≠ [])
    (hboundary : ∀ c ∈ u.getLast?, isWord c = false) (hstop : ∀ c ∈ t.head?, isDecimal c = false) :
    Taken u ("delay".toList ++ (blanks ++ n)) t n := by
  have hleft : ∀ c ∈ (u ++ ("delay".toList ++ blanks)).getLast?, isDecimal c = false := by
    intro c hc
    rw [← List.append_assoc, List.getLast?_append, List.getLast?_eq_some_getLast hne] at hc
    cases hc
    exact isDecimal_of_isBlank (hb _ (List.getLast_mem hne))
  have hpart : "delay".toList ++ (blanks ++ n) = "delay".toList ++ blanks ++ (n ++ []) := by
    rw [List.append_nil, List.append_assoc]
  refine ⟨List.append_ne_nil_of_left_ne_nil (by decide) _, hp.take_word hn hb hstop,
    u ++ ("delay".toList ++ blanks), t,
    ⟨?_, ⟨hn, hleft, hstop⟩, .inr ⟨u, blanks, hboundary, hne, hb, rfl⟩⟩, ?_⟩
  · simp only [List.append_assoc]
  · intro u' n' v' h hlt
    rw [hpart] at h hlt
    exact h.length_le hn (List.forall_mem_nil _) hlt

/-- What is found at a place is the marked number of a part that may be passed over. -/
theorem Passed.exists_taken {k : Nat} (hp : Passed u t)
    (h : findPreferred u.getLast? t = some (n, k)) :
    ∃ s rest, t = s ++ rest ∧ k = s.length ∧ Taken u s rest n := by
  rcases Option.or_eq_some_iff.mp h with hms | ⟨-, hdelay⟩
  · obtain ⟨blanks, rest, hn, hb, rfl, rfl⟩ := of_msNumber?_eq_some hms
    have hsplit : n ++ (blanks ++ ("ms".toList ++ rest)) =
        n ++ (blanks ++ "ms".toList) ++ rest := by simp only [List.append_assoc]
    rw [hsplit] at hp
    refine ⟨_, _, hsplit, ?_, hp.taken_unit hn hb⟩
    rw [List.length_append, List.length_append, Nat.add_assoc]
    rfl
  · obtain ⟨blanks, rest, hword, hn, hstop, rfl, rfl⟩ := of_delayNumber?_eq_some hdelay
    have hsplit : "delay".toList ++ (blanks ++ (n ++ rest)) =
        "delay".toList ++ (blanks ++ n) ++ rest := by simp only [List.append_assoc]
    rw [hsplit] at hp
    refine ⟨_, _, hsplit, ?_, hp.taken_word hn hword.blank hword.ne_nil hword.boundary hstop⟩
    rw [List.length_append, List.length_append, Nat.add_assoc]
    rfl

/-- What was found is told by its last one, the numbers before the place `k` apart: it is the last
marked number, and if nothing was found, no marked number begins from `k` on. -/
structure Tells (t : Text) (k : Nat) (found : List Text) : Prop where
  nil : found = [] → ∀ u n v, Marked t u n v → u.length < k
  last : ∀ n, found.getLast? = some n → LastMarked t n

/-- A marked number with none between it and the others may be added in front. -/
theorem Tells.cons {k k' : Nat} {found : List Text} (h : Tells t k' found) (hm : Marked t u n v)
    (hmax : ∀ u' n' v', Marked t u' n' v' → u'.length < k' → u'.length ≤ u.length) :
    Tells t k (n :: found) := by
  refine ⟨fun hnil ↦ absurd hnil (List.cons_ne_nil n found), fun n' hlast ↦ ?_⟩
  cases hfound : found with
  | nil =>
    rw [hfound] at hlast
    cases hlast
    exact ⟨u, v, hm, fun u' n' v' h' ↦ hmax _ _ _ h' (h.nil hfound _ _ _ h')⟩
  | cons m rest =>
    rw [hfound, List.getLast?_cons_cons, ← hfound] at hlast
    exact h.last n' hlast

/-- From wherever a scan has got to, what it still finds tells the last marked number. -/
theorem tells_scanFrom (hp : Passed u t) :
    Tells (u ++ t) u.length (scanFrom findPreferred u.getLast? 0 t) := by
  induction hk : t.length using Nat.strong_induction_on generalizing u t with
  | _ k ih =>
    subst hk
    cases hfind : findPreferred u.getLast? t with
    | none =>
      cases t with
      | nil =>
        refine ⟨fun _ u' n' v' h ↦ ?_, fun n hn ↦ by cases hn⟩
        have hpos := List.length_pos_iff.mpr h.number.digits.ne_nil
        have hlength := congrArg List.length h.split
        simp only [List.length_append, List.length_nil] at hlength
        omega
      | cons c t =>
        have hrest := ih t.length (Nat.lt_succ_self _) (hp.pass hfind) rfl
        rw [Text.scanFrom_pass hfind]
        rw [List.append_assoc, List.singleton_append] at hrest
        refine ⟨fun hnil u' n' v' h ↦ ?_, hrest.last⟩
        have hle := hrest.nil hnil _ _ _ h
        rw [List.length_append, List.length_singleton] at hle
        refine Nat.lt_of_le_of_ne (by omega) fun hlength ↦ ?_
        -- a number at this very place would have been found
        obtain rfl := (List.append_inj h.split hlength.symm).1
        exact hp.not_marked hfind h
    | some found =>
      obtain ⟨s, rest, rfl, hlength, htaken⟩ := hp.exists_taken (n := found.1) hfind
      obtain ⟨u', v', hmarked, hmax⟩ := htaken.marked
      have hpos := List.length_pos_iff.mpr htaken.ne_nil
      have hrest := ih rest.length (by rw [List.length_append]; omega) htaken.passed rfl
      rw [List.append_assoc] at hrest
      rw [Text.scanFrom_take htaken.ne_nil (by rw [hfind, ← hlength])]
      exact hrest.cons hmarked hmax

/-- The preferred delay is the last marked number. -/
theorem getLast?_preferredDelays (t n : Text) :
    (preferredDelays t).getLast? = some n ↔ LastMarked t n := by
  have hstart : Passed [] t :=
    ⟨fun _ _ _ _ hlt ↦ absurd hlt (Nat.not_lt_zero _), fun _ hc ↦ by cases hc⟩
  have htells : Tells t 0 (preferredDelays t) := tells_scanFrom hstart
  refine ⟨htells.last n, fun h ↦ ?_⟩
  cases hfound : (preferredDelays t).getLast? with
  | none =>
    obtain ⟨u, v, hm, -⟩ := h
    exact absurd (htells.nil (List.getLast?_eq_none_iff.mp hfound) _ _ _ hm) (Nat.not_lt_zero _)
  | some m => rw [(htells.last m hfound).eq h]

end Request

end Deskhand
