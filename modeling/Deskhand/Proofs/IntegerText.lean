import Deskhand.Proofs.Editing
import Deskhand.Proofs.Outcome
import Deskhand.Script.Machine

/-!
# The text of an integer as an expression

The decimal text of an integer that is not too long is one token, or two with a sign in front, and
its value as an expression is the integer, whatever the variables.
-/

namespace Deskhand.Script

open Token

/-- A digit is no other character. -/
theorem ne_of_isDigit {c d : Char} (hc : c.isDigit = true) (hd : d.isDigit = false) : c ≠ d := by
  rintro rfl
  rw [hc] at hd
  cases hd

private theorem digitIn_of_isDigit {c : Char} (h : c.isDigit = true) :
    Number.digitIn c = some (c.toNat - 48) := by
  have hlast : c.toNat ≤ 57 := by
    simp only [Char.isDigit, Bool.and_eq_true, decide_eq_true_eq] at h
    exact h.2
  rw [Number.digitIn, Text.digitValue?, if_pos (by omega), if_pos h]

/-- Digits have one value, read from left to right. -/
theorem valueIn_digits {ds : Text} (h : ∀ c ∈ ds, c.isDigit = true) :
    valueIn 10 ds = Nat.ofDigitChars 10 ds 0 := by
  have hfold : ∀ acc, ds.foldl (fun acc c ↦ acc * 10 + (Number.digitIn c).getD 0) acc =
      Nat.ofDigitChars 10 ds acc := by
    induction ds with
    | nil => exact fun _ ↦ rfl
    | cons c rest ih =>
      intro acc
      rw [List.foldl_cons, Nat.ofDigitChars_cons, digitIn_of_isDigit (h c List.mem_cons_self),
        Nat.mul_comm acc 10]
      exact ih (fun d hd ↦ h d (List.mem_cons_of_mem c hd)) _
  exact hfold 0

/-- What may follow the last digit of a number in an expression of integers. -/
inductive EndsNumber : Text → Prop where
  | done : EndsNumber []
  | mark {c : Char} (h : c ∈ [' ', '\t', ')', '+', '-', '*', '=', '!', '<', '>']) (t : Text) :
    EndsNumber (c :: t)
  | and (t : Text) : EndsNumber ('a' :: 'n' :: 'd' :: t)
  | or (t : Text) : EndsNumber ('o' :: 'r' :: t)

/-- What follows a number begins with none of the characters that would belong to it, unless it is
the letter of base eight. -/
theorem EndsNumber.head {t : Text} (h : EndsNumber t) :
    ∀ c ∈ t.head?, c.isDigit = false ∧ c ∉ ['_', 'x', 'X', 'O', 'b', 'B'] := by
  cases h with
  | done => simp
  | mark hc t =>
    rintro c ⟨⟩
    simp only [List.mem_cons, List.not_mem_nil, or_false] at hc
    rcases hc with rfl | rfl | rfl | rfl | rfl | rfl | rfl | rfl | rfl | rfl
    all_goals decide
  | and t =>
    rintro c ⟨⟩
    decide
  | or t =>
    rintro c ⟨⟩
    decide

/-- Digits end at a character that is neither a digit nor an underscore. -/
theorem digitRun_append {ds t : Text} (h : ∀ c ∈ ds, c.isDigit = true)
    (ht : ∀ c ∈ t.head?, c.isDigit = false ∧ c ≠ '_') :
    digitRun Char.isDigit (ds ++ t) = some (ds, t) := by
  induction ds with
  | nil =>
    cases t with
    | nil => rfl
    | cons c t =>
      obtain ⟨hdigit, hne⟩ := ht c rfl
      rw [List.nil_append]
      unfold digitRun
      split
      · next he => cases he
      · next he => exact absurd (List.cons.inj he).1 hne
      · next he =>
        obtain ⟨rfl, rfl⟩ := List.cons.inj he
        rw [hdigit, if_neg Bool.false_ne_true, if_neg (by simpa using hne)]
  | cons c rest ih =>
    have hc := h c List.mem_cons_self
    have hrest := ih fun d hd ↦ h d (List.mem_cons_of_mem c hd)
    rw [List.cons_append]
    unfold digitRun
    split
    · next he => cases he
    · next he =>
      obtain ⟨rfl, -⟩ := List.cons.inj he
      exact absurd hc (by decide)
    · next he =>
      obtain ⟨rfl, rfl⟩ := List.cons.inj he
      rw [if_pos hc, hrest]
      rfl

/-- What follows a number neither goes on with it nor forbids it. -/
theorem decimalAfter_of_endsNumber {t : Text} (h : EndsNumber t) (whole : Text) :
    decimalAfter whole t =
      if whole.head? == some '0' && valueIn 10 whole != 0 then none
      else if whole.length > Number.digitLimit then none
      else some (.int (valueIn 10 whole), t) := by
  cases h with
  | done => rfl
  | mark hc t =>
    simp only [List.mem_cons, List.not_mem_nil, or_false] at hc
    rcases hc with rfl | rfl | rfl | rfl | rfl | rfl | rfl | rfl | rfl | rfl
    all_goals rfl
  | and t => rfl
  | or t => rfl

/-- Only zero is written with a zero in front. -/
theorem eq_zero_of_head?_toDigits {n : Nat} (h : (Nat.toDigits 10 n).head? = some '0') : n = 0 := by
  induction n using Nat.strongRecOn with
  | ind n ih =>
    by_cases hn : n < 10
    · rw [Nat.toDigits_of_lt_base hn] at h
      have hdigit : ∀ d < 10, Nat.digitChar d = '0' → d = 0 := by decide
      exact hdigit n hn (Option.some.inj h)
    · obtain ⟨c, rest, hc⟩ :=
        List.exists_cons_of_ne_nil (Nat.toDigits_ne_nil (n := n / 10) (b := 10))
      rw [Nat.toDigits_of_base_le (by decide) (by omega), hc] at h
      have hzero := ih (n / 10) (by omega) (by rw [hc]; exact h)
      omega

/-! ### Tokens -/

/-- The character is neither blank nor a line end, a comment or a backslash. -/
def BeginsToken (c : Char) : Prop := ∀ e ∈ [' ', '\t', '\x0c', '#', '\n', '\\'], c ≠ e

/-- A digit begins a token. -/
theorem beginsToken_of_isDigit {c : Char} (h : c.isDigit = true) : BeginsToken c := by
  intro e he
  refine ne_of_isDigit h ?_
  revert e
  simp

/-- A character that begins a token begins the first of the tokens. -/
theorem scan_cons {c : Char} (hc : BeginsToken c) (rest : Text) (depth : Nat) (started : Bool)
    (fuel : Nat) :
    scan depth started (fuel + 1) (c :: rest) = (first (c :: rest)).bind fun found ↦
      (depthAfter depth found.1).bind fun d ↦ (scan d true fuel found.2).map (found.1 :: ·) := by
  have hne : ∀ e ∈ [' ', '\t', '\x0c', '#', '\n', '\\'], (c == e) = false := fun e he ↦
    beq_eq_false_iff_ne.mpr (hc e he)
  conv => lhs; unfold scan
  rw [hne ' ' (by simp), hne '\t' (by simp), hne '\x0c' (by simp), hne '#' (by simp),
    hne '\n' (by simp), hne '\\' (by simp)]
  cases hfirst : first (c :: rest) with
  | none => simp
  | some found =>
    obtain ⟨token, r⟩ := found
    rw [Option.bind_some]
    cases hd : depthAfter depth token with
    | none => simp [hd]
    | some d => simp [hd]

/-- Line ends are unified only where there are some. -/
theorem unifyLineEnds_of_not_mem {t : Text} (h : '\r' ∉ t) : unifyLineEnds t = t := by
  induction t with
  | nil => rfl
  | cons c rest ih =>
    have hc : c ≠ '\r' := fun he ↦ h (by simp [he])
    have hrest := ih fun hm ↦ h (List.mem_cons_of_mem c hm)
    unfold unifyLineEnds
    split
    · next he => exact absurd (List.cons.inj he).1 hc
    · next he => exact absurd (List.cons.inj he).1 hc
    · next he =>
      obtain ⟨rfl, rfl⟩ := List.cons.inj he
      rw [hrest]
    · next he => cases he

section Natural

variable {n limit : Nat}

/-- The digits of a natural number are digits. -/
theorem isDigit_of_mem_ofNat {c : Char} (h : c ∈ Text.ofNat n) : c.isDigit = true :=
  Nat.isDigit_of_mem_toDigits (by decide) (by decide) h

private theorem length_ofNat_le (hl : 0 < limit) (hn : n < Nat.pow 10 limit) :
    (Text.ofNat n).length ≤ limit :=
  (Nat.length_toDigits_le_iff (by decide) hl).mpr hn

/-- Digits are read as the number that they write, unless they are too many. -/
theorem number_append {t : Text} (ht : EndsNumber t) (hz : n = 0 → ∀ r, t ≠ 'o' :: r) :
    number (Text.ofNat n ++ t) =
      if (Text.ofNat n).length > Number.digitLimit then none else some (.int n, t) := by
  have hdigits : ∀ c ∈ Text.ofNat n, c.isDigit = true := fun c ↦ isDigit_of_mem_ofNat
  have hvalue : valueIn 10 (Text.ofNat n) = n := by
    rw [valueIn_digits hdigits]
    exact Nat.ofDigitChars_toDigits (by decide) (by decide)
  have hhead : ((Text.ofNat n).head? == some '0' && n != 0) = false := by
    rw [Bool.and_eq_false_iff]
    by_cases hzero : n = 0
    · exact .inr (by simpa using hzero)
    · exact .inl (beq_eq_false_iff_ne.mpr fun h ↦ hzero (eq_zero_of_head?_toDigits h))
  have hend : ∀ c ∈ t.head?, c.isDigit = false ∧ c ≠ '_' := fun c hc ↦
    ⟨(ht.head c hc).1, fun he ↦ (ht.head c hc).2 (by simp [he])⟩
  have hboth : ((digitRun Char.isDigit (Text.ofNat n ++ t)).bind fun found ↦
      decimalAfter found.1 found.2) =
        if (Text.ofNat n).length > Number.digitLimit then none else some (.int n, t) := by
    rw [digitRun_append hdigits hend, Option.bind_some, decimalAfter_of_endsNumber ht, hvalue,
      hhead, if_neg Bool.false_ne_true]
  unfold number
  split
  · next c rest he =>
    -- a zero in front is all of the digits
    have hzero : n = 0 := by
      apply eq_zero_of_head?_toDigits
      cases hd : Nat.toDigits 10 n with
      | nil => exact absurd hd Nat.toDigits_ne_nil
      | cons d ds =>
        rw [Text.ofNat, hd] at he
        rw [(List.cons.inj he).1]
        rfl
    have ht' : t = c :: rest := by
      rw [hzero] at he
      exact (List.cons.inj he).2
    have hc := (ht.head c (by rw [ht']; rfl)).2
    have hne : ∀ d ∈ ['x', 'X', 'o', 'O', 'b', 'B'], (c == d) = false := by
      intro d hd
      rw [beq_eq_false_iff_ne]
      rintro rfl
      by_cases ho : c = 'o'
      · exact hz hzero rest (by rw [ht', ho])
      · simp only [List.mem_cons, List.not_mem_nil, or_false, ho, false_or] at hd hc
        exact hc (.inr hd)
    rw [hne 'x' (by simp), hne 'X' (by simp), hne 'o' (by simp), hne 'O' (by simp),
      hne 'b' (by simp), hne 'B' (by simp)]
    exact hboth
  · exact hboth

/-- Zero and the word for a disjunction run together. -/
theorem number_zero_or (t : Text) : number ('0' :: 'o' :: 'r' :: t) = none := by
  cases t with
  | nil => rfl
  | cons c t => rfl

private theorem number_ofNat (hn : (Text.ofNat n).length ≤ Number.digitLimit) :
    number (Text.ofNat n) = some (.int n, []) := by
  have hread := number_append (n := n) .done (by simp)
  rwa [List.append_nil, if_neg (by omega)] at hread

private theorem scan_ofNat (hn : (Text.ofNat n).length ≤ Number.digitLimit) (depth fuel : Nat)
    (started : Bool) : scan depth started (fuel + 2) (Text.ofNat n) = some [.int n] := by
  have hnumber := number_ofNat hn
  obtain ⟨c, rest, hc⟩ := List.exists_cons_of_ne_nil (Nat.toDigits_ne_nil (n := n) (b := 10))
  have hdigit : c.isDigit = true := isDigit_of_mem_ofNat (n := n) (by rw [Text.ofNat, hc]; simp)
  rw [Text.ofNat, hc] at hnumber ⊢
  have hfirst : first (c :: rest) = some (.int n, []) := by
    rw [first, hdigit, Bool.true_or, if_pos rfl, hnumber]
  rw [scan_cons (beginsToken_of_isDigit hdigit), hfirst]
  rfl

/-- A sign in front of digits is a token of its own. -/
theorem first_minus (n : Nat) : first ('-' :: Text.ofNat n) = some (.sign "-", Text.ofNat n) := by
  obtain ⟨c, rest, hc⟩ := List.exists_cons_of_ne_nil (Nat.toDigits_ne_nil (n := n) (b := 10))
  have hdigit : c.isDigit = true := isDigit_of_mem_ofNat (n := n) (by rw [Text.ofNat, hc]; simp)
  have hgt : ('>' == c) = false := beq_eq_false_iff_ne.mpr (ne_of_isDigit hdigit (by decide)).symm
  have heq : ('=' == c) = false := beq_eq_false_iff_ne.mpr (ne_of_isDigit hdigit (by decide)).symm
  have hsign :
      signs.find? (fun (s : String) ↦ Text.startsWith ('-' :: c :: rest) s) = some "-" := by
    simp [signs, Text.startsWith, List.isPrefixOf, hgt, heq]
  rw [Text.ofNat, hc]
  change signAt ('-' :: c :: rest) = _
  rw [signAt, hsign]
  rfl

end Natural

/-- The text of a number below a power of ten consists of digits, after a sign if it is negative. -/
theorem ofInt_eq (n : Int) : Text.ofInt n = Text.ofNat n.natAbs ∧ 0 ≤ n ∨
    Text.ofInt n = '-' :: Text.ofNat n.natAbs ∧ n < 0 := by
  cases n with
  | ofNat k => exact .inl ⟨rfl, Int.natCast_nonneg k⟩
  | negSucc k => exact .inr ⟨rfl, Int.negSucc_lt_zero k⟩

/-- The characters in the text of an integer. -/
theorem mem_ofInt {n : Int} {c : Char} (h : c ∈ Text.ofInt n) : c.isDigit = true ∨ c = '-' := by
  rcases ofInt_eq n with ⟨he, -⟩ | ⟨he, -⟩
  · rw [he] at h
    exact .inl (isDigit_of_mem_ofNat h)
  · rw [he] at h
    rcases List.mem_cons.mp h with h | h
    · exact .inr h
    · exact .inl (isDigit_of_mem_ofNat h)

/-- Other characters do not occur in the text of an integer. -/
theorem not_mem_ofInt {n : Int} {c : Char} (hc : c.isDigit = false) (hm : c ≠ '-') :
    c ∉ Text.ofInt n := by
  intro h
  rcases mem_ofInt h with h | h
  · rw [h] at hc
    cases hc
  · exact hm h

/-- The text of an integer is never empty. -/
theorem ofInt_ne_nil (n : Int) : Text.ofInt n ≠ [] := by
  rcases ofInt_eq n with ⟨he, -⟩ | ⟨he, -⟩
  · rw [he]
    exact Nat.toDigits_ne_nil
  · rw [he]
    exact List.cons_ne_nil _ _

/-- The tokens of the text of an integer that is not too long. -/
theorem ofText?_ofInt {n : Int} (hn : (Text.ofNat n.natAbs).length ≤ Number.digitLimit) :
    Token.ofText? (Text.ofInt n) =
      some (if n < 0 then [.sign "-", .int n.natAbs] else [.int n.natAbs]) := by
  have hdrop : (Text.ofInt n).dropWhile (fun c ↦ c == ' ' || c == '\t') = Text.ofInt n := by
    cases ht : Text.ofInt n with
    | nil => rfl
    | cons c rest =>
      have hc : c ∈ Text.ofInt n := by simp [ht]
      have hblank : (c == ' ') = false := beq_eq_false_iff_ne.mpr fun he ↦
        not_mem_ofInt (by decide) (by decide) (he ▸ hc)
      have htab : (c == '\t') = false := beq_eq_false_iff_ne.mpr fun he ↦
        not_mem_ofInt (by decide) (by decide) (he ▸ hc)
      rw [List.dropWhile_cons, hblank, htab]
      rfl
  have hlength : ∃ k, (Text.ofNat n.natAbs).length = k + 1 :=
    Nat.exists_eq_add_one.mpr (List.length_pos_iff.mpr Nat.toDigits_ne_nil)
  obtain ⟨k, hk⟩ := hlength
  unfold Token.ofText?
  rw [hdrop, unifyLineEnds_of_not_mem (not_mem_ofInt (by decide) (by decide))]
  dsimp only
  rcases ofInt_eq n with ⟨he, hpos⟩ | ⟨he, hneg⟩
  · rw [he, if_neg (by omega), hk]
    exact scan_ofNat hn 0 k false
  · have hsign := scan_cons (c := '-') (by simp [BeginsToken]) (Text.ofNat n.natAbs) 0 false (k + 2)
    rw [first_minus n.natAbs] at hsign
    rw [he, if_pos hneg, List.length_cons, hk, hsign]
    change (scan 0 true (k + 2) (Text.ofNat n.natAbs)).map _ = _
    rw [scan_ofNat hn]
    rfl

/-! ### Values -/

/-- What is written for an integer, if it is not too long. -/
theorem of_intText? {n : Int} {t : Text} (h : Number.intText? n = some t) :
    t = Text.ofInt n ∧ (Text.ofNat n.natAbs).length ≤ Number.digitLimit := by
  have hlimit : ∀ {limit : Nat}, 0 < limit →
      (if n.natAbs < Nat.pow 10 limit then some (Text.ofInt n) else none) = some t →
        t = Text.ofInt n ∧ (Text.ofNat n.natAbs).length ≤ limit := by
    intro limit hl h
    by_cases hn : n.natAbs < Nat.pow 10 limit
    · rw [if_pos hn] at h
      exact ⟨(Option.some.inj h).symm, length_ofNat_le hl hn⟩
    · rw [if_neg hn] at h
      cases h
  exact hlimit (by decide) h

/-- An integer that is not too long is written in full. -/
theorem intText?_of_length_le {n : Int}
    (hn : (Text.ofNat n.natAbs).length ≤ Number.digitLimit) :
    Number.intText? n = some (Text.ofInt n) := by
  have hlimit : ∀ {limit : Nat}, 0 < limit → (Text.ofNat n.natAbs).length ≤ limit →
      n.natAbs < Nat.pow 10 limit := fun hl hn ↦
    (Nat.length_toDigits_le_iff (by decide) hl).mp hn
  unfold Number.intText?
  exact if_pos (hlimit (by decide) hn)

/-- A number below the limit is written in full. -/
theorem intText?_of_lt {n : Int} {k : Nat} (hn : n.natAbs < Nat.pow 10 k)
    (hk : k ≤ Number.digitLimit) :
    Number.intText? n = some (Text.ofInt n) := by
  have hpow : ∀ {limit : Nat}, k ≤ limit → n.natAbs < Nat.pow 10 limit := fun hl ↦
    Nat.lt_of_lt_of_le hn (Nat.pow_le_pow_right (by decide) hl)
  unfold Number.intText?
  exact if_pos (hpow hk)

/-- It is shown as it is written. -/
theorem display?_of_lt {n : Int} {k : Nat} (hn : n.natAbs < Nat.pow 10 k)
    (hk : k ≤ Number.digitLimit) : (Value.int n).display? = some (Text.ofInt n) := by
  have hshown : (Value.int n).display? = Number.intText? n := by
    rw [Value.display?, Value.shown?]
    intro t ht
    cases ht
  rw [hshown, intText?_of_lt hn hk]

/-- The text of an integer that is not too long is worth the integer. -/
theorem evaluate_ofInt {n : Int} (hn : (Text.ofNat n.natAbs).length ≤ Number.digitLimit) :
    Script.evaluate (Text.ofInt n) = .ok (.int n) := by
  have hzero : (Text.ofInt n).any (·.toNat == 0) = false := by
    rw [List.any_eq_false]
    intro c hc hz
    rcases mem_ofInt hc with h | rfl
    · exact ne_of_isDigit h (d := Char.ofNat 0) (by decide) (Char.toNat_inj.mp (by simpa using hz))
    · cases hz
  rw [Script.evaluate, hzero, if_neg Bool.false_ne_true, Expr.ofText?, ofText?_ofInt hn]
  by_cases hneg : n < 0
  · rw [if_pos hneg]
    have hvalue : n = -(n.natAbs : Int) := by omega
    conv => rhs; rw [hvalue]
    rfl
  · rw [if_neg hneg]
    have hvalue : n = (n.natAbs : Int) := by omega
    conv => rhs; rw [hvalue]
    rfl

namespace Macro

/-- A text without a dollar sign is left alone, whatever follows. -/
theorem substitute_append_of_not_mem {values : Table Value} {a : Text} (h : '$' ∉ a) (t : Text) :
    substitute values none (a ++ t) = (substitute values none t).map (a ++ ·) := by
  induction a with
  | nil => simp
  | cons c a ih =>
    have hc : (c == '$') = false := beq_eq_false_iff_ne.mpr fun he ↦ h (by simp [he])
    rw [List.cons_append, substitute, hc, if_neg Bool.false_ne_true,
      ih fun hm ↦ h (List.mem_cons_of_mem c hm), Option.map_map]
    rfl

/-- An expression without a dollar sign has no variables to replace. -/
theorem substitute_of_not_mem {t : Text} (h : '$' ∉ t) (values : Table Value) :
    substitute values none t = some t := by
  have hend := @substitute_append_of_not_mem values t h []
  rw [List.append_nil] at hend
  rw [hend]
  exact congrArg some (List.append_nil t)

/-- The text of an integer is worth the integer, whatever the machine. -/
theorem evaluate_intText {n : Int} {t : Text} (h : Number.intText? n = some t) (m : Machine) :
    evaluate t m = .ok (.int n) m := by
  obtain ⟨rfl, hn⟩ := of_intText? h
  have hexpression : expressionText (Text.ofInt n) = Text.ofInt n := by
    unfold expressionText
    dsimp only
    rw [show "^".toList = ['^'] from rfl, show "&&".toList = ['&', '&'] from rfl,
      show "||".toList = ['|', '|'] from rfl,
      Text.replaceAll_of_not_mem (not_mem_ofInt (by decide) (by decide)),
      Text.replaceAll_of_not_mem (not_mem_ofInt (by decide) (by decide)),
      Text.replaceAll_of_not_mem (not_mem_ofInt (by decide) (by decide))]
  rw [evaluate, bind_of_ok (run_get m),
    substitute_of_not_mem (not_mem_ofInt (by decide) (by decide))]
  dsimp only
  rw [hexpression, Evaluator.eval_calculator, evaluate_ofInt hn]
  rfl

end Macro

end Deskhand.Script
