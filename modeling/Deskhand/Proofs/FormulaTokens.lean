import Deskhand.Proofs.FormulaText
import Deskhand.Proofs.TokenOrder

/-!
# The tokens of a formula

The text that is evaluated for a formula is cut into the tokens of its lexemes, unless a number is too
long, brackets are nested too deeply, or the words that stand for `&&` and `||` run together with the
digits next to them. If they do, the text is no expression at all.
-/

namespace Deskhand.Script

open Token

/-! ### Steps of the scan -/

/-- With enough fuel, `P` holds of what the scan of a text gives. -/
def Scans (P : Option (List Token) → Prop) (depth : Nat) (started : Bool) (t : Text) : Prop :=
  ∀ fuel, t.length < fuel → P (scan depth started fuel t)

section Steps

variable {P : Option (List Token) → Prop} {depth d : Nat} {started : Bool} {c : Char} {t r : Text}

/-- A text that is used up has no tokens. -/
theorem Scans.nil (h : P (some [])) : Scans P depth started [] := by
  intro fuel hf
  cases fuel with
  | zero => cases hf
  | succ fuel => exact h

/-- A blank is passed over. -/
theorem Scans.gap (hc : isGap c = true) (h : Scans P depth started t) :
    Scans P depth started (c :: t) := by
  intro fuel hf
  cases fuel with
  | zero => cases hf
  | succ fuel =>
    have hblank : (c == ' ' || c == '\t' || c == '\x0c') = true := by
      rw [isGap] at hc
      rw [hc, Bool.true_or]
    unfold scan
    rw [if_pos hblank]
    exact h fuel (by simpa using hf)

/-- Blanks are passed over. -/
theorem Scans.gaps {gap : Text} (hg : gap.all isGap = true) (h : Scans P depth started t) :
    Scans P depth started (gap ++ t) := by
  induction gap with
  | nil => exact h
  | cons c gap ih =>
    rw [List.all_cons, Bool.and_eq_true] at hg
    exact (ih hg.2).gap hg.1

/-- The first token is put in front of those that follow. -/
theorem Scans.cons {x : Token} (hc : BeginsToken c) (hfirst : first (c :: t) = some (x, r))
    (hr : r.length ≤ t.length) (hd : Token.depthAfter depth x = some d)
    (h : Scans (fun ts ↦ P (ts.map (x :: ·))) d true r) : Scans P depth started (c :: t) := by
  intro fuel hf
  cases fuel with
  | zero => cases hf
  | succ fuel =>
    rw [scan_cons hc, hfirst, Option.bind_some, hd, Option.bind_some]
    refine h fuel ?_
    rw [List.length_cons] at hf
    omega

/-- Where there is no first token, brackets do not fit, or the first token is not wanted, the rest does
not matter. -/
theorem Scans.refuse (hc : BeginsToken c) (hnone : P none)
    (hfirst : ∀ found, first (c :: t) = some found →
      Token.depthAfter depth found.1 = none ∨ ∀ ts, P (some (found.1 :: ts))) :
    Scans P depth started (c :: t) := by
  intro fuel hf
  cases fuel with
  | zero => cases hf
  | succ fuel =>
    rw [scan_cons hc]
    cases hfound : first (c :: t) with
    | none => exact hnone
    | some found =>
      rw [Option.bind_some]
      rcases hfirst found hfound with hdepth | hany
      · rw [hdepth]
        exact hnone
      · cases Token.depthAfter depth found.1 with
        | none => exact hnone
        | some d =>
          rw [Option.bind_some]
          cases scan d true fuel found.2 with
          | none => exact hnone
          | some ts => exact hany ts

end Steps

/-- What holds of the tokens may be weakened. -/
theorem Scans.mono {P Q : Option (List Token) → Prop} {depth : Nat} {started : Bool} {t : Text}
    (h : Scans P depth started t) (hpq : ∀ ts, P ts → Q ts) : Scans Q depth started t :=
  fun fuel hf ↦ hpq _ (h fuel hf)

/-! ### Lexemes -/

/-- What follows an operator or an opening bracket in a formula: a blank, a digit, a sign or an opening
bracket. -/
def EndsSign (t : Text) : Prop :=
  ∀ c ∈ t.head?, isGap c = true ∨ c.isDigit = true ∨ c = '-' ∨ c = '('

/-- No longer sign begins where an operator ends. -/
theorem EndsSign.ne {t : Text} (ht : EndsSign t) {c : Char} (hc : c ∈ t.head?) {d : Char}
    (hd : d ∈ ['=', '<', '>', '*']) : (d == c) = false := by
  rw [beq_eq_false_iff_ne]
  rintro rfl
  simp only [List.mem_cons, List.not_mem_nil, or_false] at hd
  have hnone : ¬ (isGap d = true ∨ d.isDigit = true ∨ d = '-' ∨ d = '(') := by
    rcases hd with rfl | rfl | rfl | rfl <;> decide
  exact hnone (ht d hc)

/-- The sign of an operator is found where it ends. -/
theorem signAt_operator {op : Operator} (hop : op ≠ .and ∧ op ≠ .or) {t : Text} (ht : EndsSign t) :
    signAt (op.evaluated ++ t) = some (op.token, t) := by
  have hfind : signs.find? (fun (s : String) ↦ Text.startsWith (op.evaluated ++ t) s) =
      some (String.ofList op.evaluated) := by
    cases t with
    | nil =>
      cases op with
      | and | or => simp at hop
      | _ => rfl
    | cons c t =>
      have heq := ht.ne rfl (d := '=') (by simp)
      have hlt := ht.ne rfl (d := '<') (by simp)
      have hgt := ht.ne rfl (d := '>') (by simp)
      have hmul := ht.ne rfl (d := '*') (by simp)
      cases op with
      | and => simp at hop
      | or => simp at hop
      | _ =>
        simp [signs, Text.startsWith, List.isPrefixOf, Operator.evaluated, Operator.text, heq, hlt,
          hgt, hmul]
  rw [signAt, hfind]
  cases op with
  | and => simp at hop
  | or => simp at hop
  | _ => rfl

/-- A word that begins like `and` or `or` is a name, if it may be one. -/
theorem word_cons {c : Char} (hc : c = 'a' ∨ c = 'o') (t : Text) :
    word (c :: t) = if isName (c :: t.takeWhile isWordChar) then
      some (.name (c :: t.takeWhile isWordChar), t.dropWhile isWordChar) else none := by
  have hword : isWordChar c = true := by
    rcases hc with rfl | rfl <;> decide
  have hspan : (c :: t).span isWordChar = (c :: t.takeWhile isWordChar, t.dropWhile isWordChar) := by
    rw [List.span_eq_takeWhile_dropWhile, List.takeWhile_cons, List.dropWhile_cons, if_pos hword,
      if_pos hword]
  have hletters : ∀ (d : Char) (u : Text), c.toLower ≠ d →
      ((c :: t.takeWhile isWordChar).map Char.toLower == d :: u) = false := by
    intro d u hd
    rw [beq_eq_false_iff_ne]
    exact fun he ↦ hd (List.cons.inj he).1
  have hlower : c.toLower = c := by
    rcases hc with rfl | rfl <;> rfl
  have hne : ∀ d ∈ ['r', 'u', 'b', 'f'], c.toLower ≠ d := by
    rw [hlower]
    rcases hc with rfl | rfl <;> simp
  have hprefixes : (["b", "f", "br", "rb", "fr", "rf"].any
      ((c :: t.takeWhile isWordChar).map Char.toLower == ·.toList)) = false := by
    rw [List.any_eq_false]
    intro s hs
    simp only [List.mem_cons, List.not_mem_nil, or_false] at hs
    rcases hs with rfl | rfl | rfl | rfl | rfl | rfl
    · exact Bool.eq_false_iff.mp (hletters 'b' [] (hne 'b' (by simp)))
    · exact Bool.eq_false_iff.mp (hletters 'f' [] (hne 'f' (by simp)))
    · exact Bool.eq_false_iff.mp (hletters 'b' ['r'] (hne 'b' (by simp)))
    · exact Bool.eq_false_iff.mp (hletters 'r' ['b'] (hne 'r' (by simp)))
    · exact Bool.eq_false_iff.mp (hletters 'f' ['r'] (hne 'f' (by simp)))
    · exact Bool.eq_false_iff.mp (hletters 'r' ['f'] (hne 'r' (by simp)))
  unfold word
  rw [hspan]
  dsimp only
  rw [hletters 'r' [] (hne 'r' (by simp)), hletters 'u' [] (hne 'u' (by simp)), hprefixes,
    Bool.and_false, if_neg Bool.false_ne_true, if_neg Bool.false_ne_true, if_neg Bool.false_ne_true]

/-- The words that stand for operators. -/
def Operator.isWord (op : Operator) : Bool := op == .and || op == .or

private theorem first_word {op : Operator} (hop : op.isWord = true) (t : Text) :
    first (op.evaluated ++ t) = if isName (op.evaluated ++ t.takeWhile isWordChar) then
      some (.name (op.evaluated ++ t.takeWhile isWordChar), t.dropWhile isWordChar) else none := by
  cases op with
  | and => exact word_cons (.inl rfl) ('n' :: 'd' :: t)
  | or => exact word_cons (.inr rfl) ('r' :: t)
  | _ => cases hop

/-- A word that stands for an operator ends at a character that is none of a word. -/
theorem first_word_of_end {op : Operator} (hop : op.isWord = true) {t : Text}
    (ht : ∀ c ∈ t.head?, isWordChar c = false) :
    first (op.evaluated ++ t) = some (op.token, t) := by
  have hend : t.takeWhile isWordChar = [] ∧ t.dropWhile isWordChar = t := by
    cases t with
    | nil => exact ⟨rfl, rfl⟩
    | cons c t => simp [ht c rfl]
  rw [first_word hop, hend.1, hend.2, List.append_nil]
  cases op with
  | and => rfl
  | or => rfl
  | _ => cases hop

/-- A word that stands for an operator and a digit after it are another word, which does not join. -/
theorem first_word_of_digit {op : Operator} (hop : op.isWord = true) {c : Char} {t : Text}
    (hc : c.isDigit = true) {found : Token × Text} (h : first (op.evaluated ++ c :: t) = some found) :
    found.1.joins = false := by
  have hword : isWordChar c = true := by
    simp [isWordChar, Char.isAlphanum, hc]
  rw [first_word hop, List.takeWhile_cons, if_pos hword] at h
  have hname : found.1 = .name (op.evaluated ++ c :: t.takeWhile isWordChar) := by
    split at h
    · cases h
      rfl
    · cases h
  -- none of the words that join has a digit
  have hall : joinWords.all (fun w ↦ w.all fun d ↦ !d.isDigit) = true := by decide
  have hnone : ∀ w ∈ joinWords, ∀ d ∈ w, d.isDigit = false := by
    intro w hw d hd
    simpa using List.all_eq_true.1 (List.all_eq_true.1 hall w hw) d hd
  rw [hname, joins, Bool.eq_false_iff, ne_eq, List.contains_iff_mem]
  intro hm
  have hd := hnone _ hm c (by simp)
  rw [hc] at hd
  cases hd

private theorem exists_digit_ofNat_append (n : Nat) (t : Text) :
    ∃ c r, Text.ofNat n ++ t = c :: r ∧ c.isDigit = true := by
  cases hd : Text.ofNat n with
  | nil => exact absurd hd Nat.toDigits_ne_nil
  | cons c ds => exact ⟨c, ds ++ t, rfl, isDigit_of_mem_ofNat (n := n) (by simp [hd])⟩

namespace Lexeme

/-- How many brackets are open after a lexeme. -/
def depthAfter (depth : Nat) : Lexeme → Nat
  | .opening => depth + 1
  | .closing => depth - 1
  | _ => depth

end Lexeme

/-- Whether the sign for a disjunction follows without a blank. -/
def gluedOr : Spaced → Bool
  | ([], .operator .or) :: _ => true
  | _ => false

/-- Whether a digit follows without a blank. -/
def gluedDigit (env : Variable → Int) : Spaced → Bool
  | ([], .number _) :: _ => true
  | ([], .var x) :: _ => decide (0 ≤ env x)
  | _ => false

/-- Whether a number can be told from what follows: it is not too long, and zero is not followed by the
letter of base eight. -/
def isReadable (n : Nat) (xs : Spaced) : Bool :=
  decide ((Text.ofNat n).length ≤ Number.digitLimit) && !(n == 0 && gluedOr xs)

/-- Whether a lexeme can be told from the lexemes after it: numbers are readable, brackets are not
nested too deeply, and no digit follows a word. -/
def Lexeme.isLegible (env : Variable → Int) (depth : Nat) (xs : Spaced) : Lexeme → Bool
  | .number n => isReadable n xs
  | .var x => isReadable (env x).natAbs xs
  | .opening => decide (depth < 200)
  | .closing => decide (0 < depth)
  | .operator op => !(op.isWord && gluedDigit env xs)

/-- Whether every lexeme can be told from those after it. -/
def isLegible (env : Variable → Int) (depth : Nat) : Spaced → Bool
  | [] => true
  | (_, x) :: xs => x.isLegible env depth xs && isLegible env (x.depthAfter depth) xs

/-- In lexemes that are legible every variable can be written. -/
theorem length_le_of_isLegible {env : Variable → Int} {depth : Nat} {xs : Spaced}
    (hl : isLegible env depth xs = true) {p : Text × Lexeme} (hp : p ∈ xs) {x : Variable}
    (hx : p.2 = .var x) :
    (Text.ofNat (env x).natAbs).length ≤ Number.digitLimit := by
  induction xs generalizing depth with
  | nil => cases hp
  | cons q xs ih =>
    rw [isLegible, Bool.and_eq_true] at hl
    rcases List.mem_cons.1 hp with rfl | hp
    · have hread := hl.1
      rw [hx, Lexeme.isLegible, isReadable, Bool.and_eq_true, decide_eq_true_iff] at hread
      exact hread.1
    · exact ih hl.2 hp

/-! ### What follows a lexeme -/

section Following

variable {env : Variable → Int} {tail : Text} {xs : Spaced}

private theorem endsNumber_of_isGap {c : Char} (hc : isGap c = true) (t : Text) :
    EndsNumber (c :: t) := by
  rw [isGap, Bool.or_eq_true, beq_iff_eq, beq_iff_eq] at hc
  exact .mark (by rcases hc with rfl | rfl <;> simp) t

/-- After an operand a number may end. -/
theorem endsNumber_spell (hb : Blanks tail xs) (ha : Alternates false (xs.map Prod.snd)) :
    EndsNumber (spell (Lexeme.pasted env) tail xs) := by
  cases xs with
  | nil =>
    cases ht : tail with
    | nil => exact .done
    | cons c t => exact endsNumber_of_isGap (List.all_eq_true.1 hb.tail c (by simp [ht])) t
  | cons p xs =>
    obtain ⟨gap, x⟩ := p
    cases gap with
    | cons c gap =>
      exact endsNumber_of_isGap (List.all_eq_true.1 (hb.gaps _ List.mem_cons_self) c (by simp)) _
    | nil =>
      cases x with
      | number n => cases ha.1
      | var x => cases ha.1
      | opening => cases ha.1
      | closing => exact .mark (by simp) _
      | operator op =>
        cases op with
        | or => exact .or _
        | and => exact .and _
        | _ => exact .mark (by simp) _

/-- After an operand the letter of base eight follows only where the sign for a disjunction does. -/
theorem spell_ne_of_not_gluedOr (hb : Blanks tail xs) (ha : Alternates false (xs.map Prod.snd))
    (hg : gluedOr xs = false) (r : Text) : spell (Lexeme.pasted env) tail xs ≠ 'o' :: r := by
  have hhead : ∀ c ∈ (spell (Lexeme.pasted env) tail xs).head?, c ≠ 'o' := by
    refine head?_spell hb ?_ ?_
    · rintro c hc rfl
      cases hc
    · intro x hx
      cases xs with
      | nil => cases hx
      | cons q xs =>
        cases hx
        cases x with
        | number n => cases ha.1
        | var x => cases ha.1
        | opening => cases ha.1
        | closing => exact ⟨List.cons_ne_nil _ _, by rintro c ⟨⟩; decide⟩
        | operator op =>
          cases op with
          | or => cases hg
          | _ => exact ⟨List.cons_ne_nil _ _, by rintro c ⟨⟩; decide⟩
  intro he
  exact hhead 'o' (by rw [he]; rfl) rfl

/-- After an operator a sign may end. -/
theorem endsSign_spell (hb : Blanks tail xs) (ha : Alternates true (xs.map Prod.snd)) :
    EndsSign (spell (Lexeme.pasted env) tail xs) := by
  refine head?_spell hb ?_ ?_
  · exact fun c hc ↦ .inl hc
  · intro x hx
    cases xs with
    | nil => cases hx
    | cons q xs =>
      cases hx
      cases x with
      | number n =>
        refine ⟨Nat.toDigits_ne_nil, fun c hc ↦ .inr (.inl ?_)⟩
        exact isDigit_of_mem_ofNat (List.mem_of_mem_head? hc)
      | var x =>
        refine ⟨ofInt_ne_nil _, fun c hc ↦ .inr ?_⟩
        rcases mem_ofInt (List.mem_of_mem_head? hc) with h | h
        · exact .inl h
        · exact .inr (.inl h)
      | opening => exact ⟨List.cons_ne_nil _ _, by rintro c ⟨⟩; simp⟩
      | closing => cases ha.1
      | operator op => cases ha.1

/-- After an operator a word may end, if no digit follows. -/
theorem endsWord_of_not_gluedDigit (hb : Blanks tail xs) (ha : Alternates true (xs.map Prod.snd))
    (hg : gluedDigit env xs = false) :
    ∀ c ∈ (spell (Lexeme.pasted env) tail xs).head?, isWordChar c = false := by
  refine head?_spell hb ?_ ?_
  · intro c hc
    rw [isGap, Bool.or_eq_true, beq_iff_eq, beq_iff_eq] at hc
    rcases hc with rfl | rfl <;> decide
  · intro x hx
    cases xs with
    | nil => cases hx
    | cons q xs =>
      cases hx
      cases x with
      | number n => cases hg
      | var x =>
        have hneg : env x < 0 := by simpa [gluedDigit] using hg
        rcases ofInt_eq (env x) with ⟨-, hpos⟩ | ⟨he, -⟩
        · omega
        · refine ⟨ofInt_ne_nil _, ?_⟩
          change ∀ c ∈ (Text.ofInt (env x)).head?, isWordChar c = false
          rw [he]
          rintro c ⟨⟩
          decide
      | opening => exact ⟨List.cons_ne_nil _ _, by rintro c ⟨⟩; decide⟩
      | closing => cases ha.1
      | operator op => cases ha.1

/-- Where a digit follows without a blank, the text begins with one. -/
theorem exists_digit_of_gluedDigit (hg : gluedDigit env xs = true) :
    ∃ c r, spell (Lexeme.pasted env) tail xs = c :: r ∧ c.isDigit = true := by
  cases xs with
  | nil => cases hg
  | cons p xs =>
    obtain ⟨gap, x⟩ := p
    cases gap with
    | cons c gap => cases x <;> cases hg
    | nil =>
      cases x with
      | number n => exact exists_digit_ofNat_append n _
      | var x =>
        have hpos : 0 ≤ env x := by simpa [gluedDigit] using hg
        rcases ofInt_eq (env x) with ⟨he, -⟩ | ⟨-, hneg⟩
        · rw [spell, List.nil_append]
          change ∃ c r, Text.ofInt (env x) ++ _ = c :: r ∧ _
          rw [he]
          exact exists_digit_ofNat_append _ _
        · omega
      | _ => cases hg

end Following

/-! ### From text to tokens -/

section Lexemes

variable {P : Option (List Token) → Prop} {env : Variable → Int} {depth : Nat} {started : Bool}
  {tail : Text} {xs : Spaced}

/-- A number is the first token if it is readable. -/
theorem first_number (hb : Blanks tail xs) (ha : Alternates false (xs.map Prod.snd)) (n : Nat) :
    first (Text.ofNat n ++ spell (Lexeme.pasted env) tail xs) =
      if isReadable n xs then some (.int n, spell (Lexeme.pasted env) tail xs) else none := by
  have hnumber : first (Text.ofNat n ++ spell (Lexeme.pasted env) tail xs) =
      number (Text.ofNat n ++ spell (Lexeme.pasted env) tail xs) := by
    obtain ⟨c, r, hr, hc⟩ := exists_digit_ofNat_append n (spell (Lexeme.pasted env) tail xs)
    rw [hr, first, hc, Bool.true_or, if_pos rfl]
  rw [hnumber]
  by_cases hz : n = 0 ∧ gluedOr xs = true
  · obtain ⟨rfl, hg⟩ := hz
    rw [if_neg (by simp [isReadable, hg])]
    cases xs with
    | nil => cases hg
    | cons p xs =>
      obtain ⟨gap, x⟩ := p
      unfold gluedOr at hg
      split at hg
      · rename_i heq
        cases heq
        exact number_zero_or _
      · cases hg
  · have hne : n = 0 → ∀ r, spell (Lexeme.pasted env) tail xs ≠ 'o' :: r := fun h0 ↦
      spell_ne_of_not_gluedOr hb ha (Bool.eq_false_iff.2 fun hg ↦ hz ⟨h0, hg⟩)
    have hglued : (n == 0 && gluedOr xs) = false := by
      rw [Bool.eq_false_iff, ne_eq, Bool.and_eq_true, beq_iff_eq]
      exact hz
    rw [number_append (endsNumber_spell hb ha) hne, isReadable, hglued]
    by_cases hlen : (Text.ofNat n).length ≤ Number.digitLimit
    · rw [if_neg (by omega), if_pos (by simpa using hlen)]
    · rw [if_pos (by omega), if_neg (by simpa using hlen)]

/-- A readable number is one token, and any other is none. -/
theorem Scans.number (hb : Blanks tail xs) (ha : Alternates false (xs.map Prod.snd)) {n : Nat}
    (h : isReadable n xs = true → Scans (fun ts ↦ P (ts.map (.int n :: ·))) depth true
      (spell (Lexeme.pasted env) tail xs))
    (hnone : isReadable n xs = false → P none) :
    Scans P depth started (Text.ofNat n ++ spell (Lexeme.pasted env) tail xs) := by
  have hfirst := @first_number env tail xs hb ha n
  obtain ⟨c, r, hr, hc⟩ := exists_digit_ofNat_append n (spell (Lexeme.pasted env) tail xs)
  have hlength : (spell (Lexeme.pasted env) tail xs).length ≤ r.length := by
    have hsum := congrArg List.length hr
    have hpos : 0 < (Text.ofNat n).length := List.length_pos_iff.mpr Nat.toDigits_ne_nil
    rw [List.length_append, List.length_cons] at hsum
    omega
  rw [hr] at hfirst ⊢
  cases hn : isReadable n xs with
  | true =>
    rw [hn, if_pos rfl] at hfirst
    exact .cons (beginsToken_of_isDigit hc) hfirst hlength rfl (h hn)
  | false =>
    rw [hn, if_neg Bool.false_ne_true] at hfirst
    refine .refuse (beginsToken_of_isDigit hc) (hnone hn) ?_
    intro found hfound
    rw [hfirst] at hfound
    cases hfound

/-- A readable integer is one token, or two if it is negative, and any other is none. -/
theorem Scans.integer (hb : Blanks tail xs) (ha : Alternates false (xs.map Prod.snd)) {n : Int}
    (h : isReadable n.natAbs xs = true → Scans (fun ts ↦ P (ts.map
        ((if n < 0 then [.sign "-", .int n.natAbs] else [.int n.natAbs]) ++ ·))) depth true
      (spell (Lexeme.pasted env) tail xs))
    (hnone : isReadable n.natAbs xs = false → P none) :
    Scans P depth started (Text.ofInt n ++ spell (Lexeme.pasted env) tail xs) := by
  rcases ofInt_eq n with ⟨he, hpos⟩ | ⟨he, hneg⟩
  · rw [he]
    rw [if_neg (by omega)] at h
    exact .number hb ha h hnone
  · rw [he]
    rw [if_pos hneg] at h
    have hsign : EndsSign (Text.ofNat n.natAbs ++ spell (Lexeme.pasted env) tail xs) := by
      obtain ⟨d, r, hr, hd⟩ :=
        exists_digit_ofNat_append n.natAbs (spell (Lexeme.pasted env) tail xs)
      rw [hr]
      rintro c ⟨⟩
      exact .inr (.inl hd)
    have hfirst : first ('-' :: (Text.ofNat n.natAbs ++ spell (Lexeme.pasted env) tail xs)) =
        some (.sign "-", Text.ofNat n.natAbs ++ spell (Lexeme.pasted env) tail xs) :=
      @signAt_operator .sub ⟨by decide, by decide⟩ _ hsign
    refine .cons (by simp [BeginsToken]) hfirst (by simp) rfl (.number hb ha ?_ hnone)
    intro hn
    refine (h hn).mono ?_
    intro ts hts
    rw [Option.map_map]
    exact hts

/-- A legible operator is one token. One that is not is a word that does not join, or no token. -/
theorem Scans.operator (hb : Blanks tail xs) (ha : Alternates true (xs.map Prod.snd))
    {op : Operator}
    (h : (Lexeme.operator op).isLegible env depth xs = true →
      Scans (fun ts ↦ P (ts.map (op.token :: ·))) depth true (spell (Lexeme.pasted env) tail xs))
    (hnone : (Lexeme.operator op).isLegible env depth xs = false →
      P none ∧ ∀ y ts, y.joins = false → P (some (y :: ts))) :
    Scans P depth started (op.evaluated ++ spell (Lexeme.pasted env) tail xs) := by
  have hbegin : ∃ c r, op.evaluated = c :: r ∧ BeginsToken c := by
    cases op <;> exact ⟨_, _, rfl, by simp [BeginsToken]⟩
  have hdepth : Token.depthAfter depth op.token = some depth := by
    cases op <;> rfl
  obtain ⟨c, r, hr, hc⟩ := hbegin
  cases hword : op.isWord with
  | false =>
    have hop : op ≠ .and ∧ op ≠ .or := by
      rw [Operator.isWord, Bool.or_eq_false_iff, beq_eq_false_iff_ne, beq_eq_false_iff_ne] at hword
      exact hword
    have hfirst : first (op.evaluated ++ spell (Lexeme.pasted env) tail xs) =
        some (op.token, spell (Lexeme.pasted env) tail xs) := by
      rw [← signAt_operator hop (endsSign_spell hb ha)]
      cases op with
      | and | or => cases hword
      | _ => rfl
    rw [hr] at hfirst ⊢
    exact .cons hc hfirst (by simp) hdepth (h (by simp [Lexeme.isLegible, hword]))
  | true =>
    cases hglued : gluedDigit env xs with
    | false =>
      have hfirst := first_word_of_end hword (endsWord_of_not_gluedDigit hb ha hglued)
      rw [hr] at hfirst ⊢
      exact .cons hc hfirst (by simp) hdepth (h (by simp [Lexeme.isLegible, hglued]))
    | true =>
      obtain ⟨hno, hother⟩ := hnone (by simp [Lexeme.isLegible, hword, hglued])
      obtain ⟨d, u, hu, hd⟩ := @exists_digit_of_gluedDigit env tail xs hglued
      have hjoins := @first_word_of_digit op hword d u hd
      rw [hr] at hjoins
      rw [hu, hr]
      refine .refuse hc hno fun found hfound ↦ .inr fun ts ↦ ?_
      exact hother found.1 ts (hjoins hfound)

/-- A bracket is one token, if it fits. -/
theorem Scans.bracket {c : Char} {s : String} {t : Text} (hc : BeginsToken c)
    (hfirst : first (c :: t) = some (.sign s, t))
    (h : ∀ d, Token.depthAfter depth (.sign s) = some d →
      Scans (fun ts ↦ P (ts.map (.sign s :: ·))) d true t)
    (hnone : Token.depthAfter depth (.sign s) = none → P none) :
    Scans P depth started (c :: t) := by
  cases hd : Token.depthAfter depth (.sign s) with
  | some d => exact .cons hc hfirst le_rfl hd (h d hd)
  | none =>
    refine .refuse hc (hnone hd) fun found hfound ↦ .inl ?_
    rw [hfirst] at hfound
    cases hfound
    exact hd

/-- The tokens of a legible lexeme are put in front of those that follow. At a lexeme that is not
legible there are no tokens, or a word follows an operand that does not join. -/
theorem Scans.lexeme {x : Lexeme} {wanted : Bool} (hb : Blanks tail xs)
    (ha : Alternates wanted (x :: xs.map Prod.snd))
    (h : x.isLegible env depth xs = true →
      Scans (fun ts ↦ P (ts.map (x.tokens env ++ ·))) (x.depthAfter depth) true
        (spell (Lexeme.pasted env) tail xs))
    (hnone : x.isLegible env depth xs = false →
      P none ∧ (wanted = false → ∀ y ts, y.joins = false → P (some (y :: ts)))) :
    Scans P depth started (x.pasted env ++ spell (Lexeme.pasted env) tail xs) := by
  cases x with
  | number n => exact .number hb ha.2 h fun hx ↦ (hnone hx).1
  | var x => exact .integer hb ha.2 h fun hx ↦ (hnone hx).1
  | opening =>
    have hdepth : Token.depthAfter depth (.sign "(") =
        if depth < 200 then some (depth + 1) else none := rfl
    refine Scans.bracket (c := '(') (s := "(") (by simp [BeginsToken]) rfl ?_ ?_
    · rw [hdepth]
      by_cases hd : depth < 200
      · rw [if_pos hd]
        rintro d ⟨⟩
        exact h (by simpa [Lexeme.isLegible] using hd)
      · rw [if_neg hd]
        rintro d ⟨⟩
    · rw [hdepth]
      intro hd
      exact (hnone (by simpa [Lexeme.isLegible] using hd)).1
  | closing =>
    have hdepth : Token.depthAfter depth (.sign ")") =
        if depth == 0 then none else some (depth - 1) := rfl
    refine Scans.bracket (c := ')') (s := ")") (by simp [BeginsToken]) rfl ?_ ?_
    · rw [hdepth]
      by_cases hd : depth = 0
      · rw [if_pos (by simpa using hd)]
        rintro d ⟨⟩
      · rw [if_neg (by simpa using hd)]
        rintro d ⟨⟩
        exact h (by simpa [Lexeme.isLegible] using Nat.pos_of_ne_zero hd)
    · rw [hdepth]
      intro hd
      exact (hnone (by simpa [Lexeme.isLegible] using hd)).1
  | operator op => exact .operator hb ha.2 h fun hx ↦ ⟨(hnone hx).1, (hnone hx).2 ha.1.symm⟩

/-- Lexemes that are legible give their tokens. -/
theorem scans_spell (hb : Blanks tail xs) {wanted : Bool} (ha : Alternates wanted (xs.map Prod.snd))
    (hl : isLegible env depth xs = true) :
    Scans (· = some (xs.flatMap fun p ↦ p.2.tokens env)) depth started
      (spell (Lexeme.pasted env) tail xs) := by
  induction xs generalizing wanted depth started with
  | nil =>
    rw [spell, ← List.append_nil tail]
    exact .gaps hb.tail (.nil rfl)
  | cons p xs ih =>
    obtain ⟨gap, x⟩ := p
    rw [isLegible, Bool.and_eq_true] at hl
    refine .gaps (hb.gaps _ List.mem_cons_self) (.lexeme hb.rest ha ?_ ?_)
    · intro _
      refine (ih hb.rest ha.2 hl.2).mono ?_
      rintro ts rfl
      rfl
    · intro hx
      rw [hl.1] at hx
      cases hx

/-- The tokens do not go on after those before as the tokens of an expression do. -/
def Refused (before : List Token) (ts : Option (List Token)) : Prop :=
  ∀ l, ts = some l → ¬ (before ++ l).IsChain MayFollow

private theorem refused_of_joins {before : List Token}
    (hclose : ∃ x ∈ before.getLast?, x.closes = true) {y : Token} (hy : y.joins = false)
    (ts : List Token) : Refused before (some (y :: ts)) := by
  rintro l ⟨⟩ hchain
  obtain ⟨x, hx, hc⟩ := hclose
  have hfollow : MayFollow x y := (List.isChain_append.1 hchain).2.2 x hx y rfl
  rw [hfollow hc] at hy
  cases hy

/-- An operand ends with a number or a closing bracket. -/
theorem Lexeme.closes_getLast? {x : Lexeme} (hx : x.ends = true) (before : List Token) :
    ∃ y ∈ (before ++ x.tokens env).getLast?, y.closes = true := by
  cases x with
  | number n => exact ⟨.int n, by simp [tokens], rfl⟩
  | var x =>
    refine ⟨.int (env x).natAbs, ?_, rfl⟩
    by_cases hneg : env x < 0
    · simp [tokens, hneg]
    · simp [tokens, hneg]
  | opening => cases hx
  | closing => exact ⟨.sign ")", by simp [tokens], rfl⟩
  | operator op => cases hx

/-- Lexemes that are not legible are refused. -/
theorem scans_spell_refused (hb : Blanks tail xs) {wanted : Bool}
    (ha : Alternates wanted (xs.map Prod.snd)) {before : List Token}
    (hbefore : wanted = false → ∃ y ∈ before.getLast?, y.closes = true)
    (hl : isLegible env depth xs = false) :
    Scans (Refused before) depth started (spell (Lexeme.pasted env) tail xs) := by
  induction xs generalizing wanted depth started before with
  | nil => cases hl
  | cons p xs ih =>
    obtain ⟨gap, x⟩ := p
    refine .gaps (hb.gaps _ List.mem_cons_self) (.lexeme hb.rest ha ?_ ?_)
    · intro hx
      rw [isLegible, hx, Bool.true_and] at hl
      have hend : (!x.ends) = false → ∃ y ∈ (before ++ x.tokens env).getLast?, y.closes = true :=
        fun he ↦ Lexeme.closes_getLast? (by simpa using he) before
      refine (ih hb.rest ha.2 hend hl).mono ?_
      rintro (_ | ts) hts l hl
      · cases hl
      · cases hl
        rw [← List.append_assoc]
        exact hts ts rfl
    · intro _
      refine ⟨?_, fun hw y ts hy ↦ refused_of_joins (hbefore hw) hy ts⟩
      rintro l ⟨⟩

/-- The characters of a lexeme that is evaluated. -/
theorem Lexeme.mem_pasted {x : Lexeme} {c : Char} (h : c ∈ x.pasted env) : c.isDigit = true ∨
    c ∈ ['-', '(', ')', '+', '*', '=', '!', '<', '>', 'a', 'n', 'd', 'o', 'r'] := by
  cases x with
  | number n => exact .inl (isDigit_of_mem_ofNat h)
  | var x =>
    rcases mem_ofInt h with h | rfl
    · exact .inl h
    · exact .inr List.mem_cons_self
  | opening =>
    rw [List.mem_singleton.1 h]
    exact .inr (by simp)
  | closing =>
    rw [List.mem_singleton.1 h]
    exact .inr (by simp)
  | operator op =>
    refine .inr ?_
    have hsubset : op.evaluated ⊆
        ['-', '(', ')', '+', '*', '=', '!', '<', '>', 'a', 'n', 'd', 'o', 'r'] := by
      cases op <;> simp [Operator.evaluated, Operator.text]
    exact hsubset h

private theorem Lexeme.not_isGap_of_mem_pasted {x : Lexeme} {c : Char} (h : c ∈ x.pasted env) :
    isGap c = false := by
  rw [Bool.eq_false_iff]
  intro hc
  rw [isGap, Bool.or_eq_true, beq_iff_eq, beq_iff_eq] at hc
  have hnone : ¬ (c.isDigit = true ∨
      c ∈ ['-', '(', ')', '+', '*', '=', '!', '<', '>', 'a', 'n', 'd', 'o', 'r']) := by
    rcases hc with rfl | rfl <;> decide
  exact hnone (mem_pasted h)

private theorem Lexeme.pasted_ne_nil (env : Variable → Int) (x : Lexeme) : x.pasted env ≠ [] := by
  cases x with
  | number n => exact Nat.toDigits_ne_nil
  | var x => exact ofInt_ne_nil (env x)
  | opening => exact List.cons_ne_nil _ _
  | closing => exact List.cons_ne_nil _ _
  | operator op => cases op <;> exact List.cons_ne_nil _ _

/-- No other character is in the text that is evaluated. -/
theorem not_mem_spell {c : Char} (hgap : isGap c = false) (hdigit : c.isDigit = false)
    (hmark : c ∉ ['-', '(', ')', '+', '*', '=', '!', '<', '>', 'a', 'n', 'd', 'o', 'r'])
    (hb : Blanks tail xs) : c ∉ spell (Lexeme.pasted env) tail xs := by
  have hblank : ∀ t : Text, t.all isGap = true → c ∉ t := by
    intro t ht hm
    rw [List.all_eq_true.1 ht c hm] at hgap
    cases hgap
  induction xs with
  | nil => exact hblank tail hb.tail
  | cons p xs ih =>
    rw [spell, List.mem_append, List.mem_append]
    rintro (h | h | h)
    · exact hblank p.1 (hb.gaps p List.mem_cons_self) h
    · rcases Lexeme.mem_pasted h with h | h
      · rw [hdigit] at h
        cases h
      · exact hmark h
    · exact ih hb.rest h

private theorem any_zero_spell (hb : Blanks tail xs) :
    (spell (Lexeme.pasted env) tail xs).any (·.toNat == 0) = false := by
  rw [List.any_eq_false]
  intro c hc hz
  have hzero : c = Char.ofNat 0 := Char.toNat_inj.mp (by simpa using hz)
  rw [hzero] at hc
  exact not_mem_spell (by decide) (by decide) (by decide) hb hc

/-- Blanks in front do not matter to the tokens of a text. -/
theorem ofText?_of_scans {gap : Text} {x : Lexeme} (hb : Blanks tail ((gap, x) :: xs))
    (h : Scans P 0 false (spell (Lexeme.pasted env) tail (([], x) :: xs))) :
    P (Token.ofText? (spell (Lexeme.pasted env) tail ((gap, x) :: xs))) := by
  obtain ⟨c, r, hx⟩ := List.exists_cons_of_ne_nil (Lexeme.pasted_ne_nil env x)
  have hc : isGap c = false := by
    apply Lexeme.not_isGap_of_mem_pasted
    rw [hx]
    exact List.mem_cons_self
  have hdrop : (spell (Lexeme.pasted env) tail ((gap, x) :: xs)).dropWhile
      (fun c ↦ c == ' ' || c == '\t') = spell (Lexeme.pasted env) tail (([], x) :: xs) := by
    rw [spell, spell, hx, List.nil_append]
    change (gap ++ _).dropWhile isGap = _
    rw [List.dropWhile_append_of_pos
      (List.all_eq_true.1 (hb.gaps _ List.mem_cons_self)), List.cons_append,
      List.dropWhile_cons, hc]
    rfl
  unfold Token.ofText?
  rw [hdrop, unifyLineEnds_of_not_mem (not_mem_spell (by decide) (by decide) (by decide) hb.drop_gap)]
  exact h _ (Nat.lt_succ_self _)

private theorem ofText?_spell (hb : Blanks tail xs) (ha : Alternates true (xs.map Prod.snd))
    (hl : isLegible env 0 xs = true) :
    Token.ofText? (spell (Lexeme.pasted env) tail xs) =
      some (xs.flatMap fun p ↦ p.2.tokens env) := by
  cases xs with
  | nil => cases ha
  | cons p xs =>
    obtain ⟨gap, x⟩ := p
    exact ofText?_of_scans hb (scans_spell (hb.drop_gap) ha hl)

/-- Lexemes that are not legible are no expression. -/
theorem evaluate_spell_of_illegible (hb : Blanks tail xs) (ha : Alternates true (xs.map Prod.snd))
    (hl : isLegible env 0 xs = false) :
    evaluate (spell (Lexeme.pasted env) tail xs) = .error .malformed := by
  have hrefused : Refused [] (Token.ofText? (spell (Lexeme.pasted env) tail xs)) := by
    cases xs with
    | nil => cases ha
    | cons p xs =>
      obtain ⟨gap, x⟩ := p
      exact ofText?_of_scans hb (scans_spell_refused hb.drop_gap ha (fun h ↦ by cases h) hl)
  have hmalformed : Expr.ofText? (spell (Lexeme.pasted env) tail xs) = none := by
    rw [Expr.ofText?, Option.bind_eq_none_iff]
    intro ts hts
    cases he : Expr.ofTokens? ts with
    | none => rfl
    | some e => exact absurd (Expr.isChain_of_ofTokens? he) (hrefused ts hts)
  rw [evaluate, any_zero_spell hb, if_neg Bool.false_ne_true, hmalformed]

/-- Legible lexemes are evaluated as the expression that their tokens write. -/
theorem evaluate_spell (hb : Blanks tail xs) (ha : Alternates true (xs.map Prod.snd))
    (hl : isLegible env 0 xs = true) {e : Expr}
    (he : Expr.ofTokens? (xs.flatMap fun p ↦ p.2.tokens env) = some e) :
    evaluate (spell (Lexeme.pasted env) tail xs) = e.eval := by
  rw [evaluate, any_zero_spell hb, if_neg Bool.false_ne_true, Expr.ofText?, ofText?_spell hb ha hl,
    Option.bind_some, he]

end Lexemes

end Deskhand.Script
