import Deskhand.Proofs.Spelling
import Mathlib.Algebra.Ring.Int.Parity

/-!
# Expressions of integers

A formula of sums, differences, products and powers is evaluated to its value if its numbers are not
too long, its brackets are not nested too deeply, and no negative variable is raised to an even power.
The digits of a variable take its place with their minus sign, and a power binds tighter than that
sign, so that an even power of a negative variable comes out negative.
-/

namespace Deskhand.Script

namespace Formula

variable (env : Variable → Int)

/-- The formula has only sums, differences, products, and powers whose exponents are not negative. -/
def Arithmetic : Formula → Prop
  | .number _ => True
  | .var _ => True
  | .bracket e => e.Arithmetic
  | .join op a b => a.Arithmetic ∧ b.Arithmetic ∧
      (op = .add ∨ op = .sub ∨ op = .mul ∨ op = .pow ∧ 0 ≤ b.value env)

/-- Whether a formula is a negative variable. -/
def isNegativeVariable : Formula → Bool
  | .var x => decide (env x < 0)
  | _ => false

/-- Negative variables are raised to odd powers only. -/
def OddPowers : Formula → Prop
  | .number _ => True
  | .var _ => True
  | .bracket e => e.OddPowers
  | .join op a b => a.OddPowers ∧ b.OddPowers ∧
      (op = .pow → a.isNegativeVariable env = true → b.value env % 2 = 1)

/-- No number has too many digits, and inside `depth` brackets no bracket is nested too deeply. -/
def Fits : Nat → Formula → Prop
  | _, .number n => (Text.ofNat n).length ≤ Number.digitLimit
  | _, .var x => (Text.ofNat (env x).natAbs).length ≤ Number.digitLimit
  | depth, .bracket e => depth < 200 ∧ Fits (depth + 1) e
  | depth, .join _ a b => Fits depth a ∧ Fits depth b

/-- A formula and the formulas it is made of. -/
def parts : Formula → List Formula
  | .number n => [.number n]
  | .var x => [.var x]
  | .bracket e => .bracket e :: e.parts
  | .join op a b => .join op a b :: (a.parts ++ b.parts)

instance Arithmetic.decidable : (f : Formula) → Decidable (f.Arithmetic env)
  | .number _ => inferInstanceAs (Decidable True)
  | .var _ => inferInstanceAs (Decidable True)
  | .bracket e => Arithmetic.decidable e
  | .join op a b =>
    have := Arithmetic.decidable a
    have := Arithmetic.decidable b
    inferInstanceAs (Decidable (a.Arithmetic env ∧ b.Arithmetic env ∧
      (op = .add ∨ op = .sub ∨ op = .mul ∨ op = .pow ∧ 0 ≤ b.value env)))

instance OddPowers.decidable : (f : Formula) → Decidable (f.OddPowers env)
  | .number _ => inferInstanceAs (Decidable True)
  | .var _ => inferInstanceAs (Decidable True)
  | .bracket e => OddPowers.decidable e
  | .join op a b =>
    have := OddPowers.decidable a
    have := OddPowers.decidable b
    inferInstanceAs (Decidable (a.OddPowers env ∧ b.OddPowers env ∧
      (op = .pow → a.isNegativeVariable env = true → b.value env % 2 = 1)))

instance Fits.decidable : (depth : Nat) → (f : Formula) → Decidable (f.Fits env depth)
  | _, .number n => inferInstanceAs (Decidable ((Text.ofNat n).length ≤ Number.digitLimit))
  | _, .var x =>
    inferInstanceAs (Decidable ((Text.ofNat (env x).natAbs).length ≤ Number.digitLimit))
  | depth, .bracket e =>
    have := Fits.decidable (depth + 1) e
    inferInstanceAs (Decidable (depth < 200 ∧ e.Fits env (depth + 1)))
  | depth, .join _ a b =>
    have := Fits.decidable depth a
    have := Fits.decidable depth b
    inferInstanceAs (Decidable (a.Fits env depth ∧ b.Fits env depth))

variable {env}

private theorem exists_of_isNegativeVariable {a : Formula} (h : a.isNegativeVariable env = true) :
    ∃ x, a = .var x ∧ env x < 0 := by
  cases a with
  | var x => exact ⟨x, rfl, of_decide_eq_true h⟩
  | _ => cases h

/-- What fits inside brackets fits inside fewer of them. -/
theorem Fits.mono {f : Formula} {depth less : Nat} (h : f.Fits env depth) (hl : less ≤ depth) :
    f.Fits env less := by
  induction f generalizing depth less with
  | number n => exact h
  | var x => exact h
  | bracket e ih => exact ⟨Nat.lt_of_le_of_lt hl h.1, ih h.2 (Nat.succ_le_succ hl)⟩
  | join op a b iha ihb => exact ⟨iha h.1 hl, ihb h.2 hl⟩

end Formula

/-! ### Which texts can be told apart -/

section Legible

variable {env : Variable → Int} {depth : Nat}

private theorem isReadable_iff {ys : Spaced} (hy : gluedOr ys = false) (n : Nat) :
    isReadable n ys = true ↔ (Text.ofNat n).length ≤ Number.digitLimit := by
  simp [isReadable, hy]

private theorem exists_gap_of_map_eq {xs : Spaced} {x : Lexeme} {ls : List Lexeme}
    (h : xs.map Prod.snd = x :: ls) : ∃ gap rest, xs = (gap, x) :: rest ∧ rest.map Prod.snd = ls := by
  obtain ⟨⟨gap, y⟩, rest, rfl, rfl, hrest⟩ := List.map_eq_cons_iff.1 h
  exact ⟨gap, rest, rfl, hrest⟩

/-- The text of an arithmetic formula is legible if the formula fits, whatever blanks it has. -/
theorem isLegible_append_iff {f : Formula} (ha : f.Arithmetic env) {xs ys : Spaced}
    (hx : xs.map Prod.snd = f.lexemes) (hy : gluedOr ys = false) :
    isLegible env depth (xs ++ ys) = true ↔ f.Fits env depth ∧ isLegible env depth ys = true := by
  induction f generalizing depth xs ys with
  | number n =>
    obtain ⟨gap, rest, rfl, hrest⟩ := exists_gap_of_map_eq hx
    obtain rfl := List.map_eq_nil_iff.1 hrest
    rw [List.singleton_append, isLegible, Bool.and_eq_true]
    exact and_congr_left fun _ ↦ isReadable_iff hy n
  | var x =>
    obtain ⟨gap, rest, rfl, hrest⟩ := exists_gap_of_map_eq hx
    obtain rfl := List.map_eq_nil_iff.1 hrest
    rw [List.singleton_append, isLegible, Bool.and_eq_true]
    exact and_congr_left fun _ ↦ isReadable_iff hy _
  | bracket e ih =>
    obtain ⟨gap, rest, rfl, hrest⟩ := exists_gap_of_map_eq hx
    obtain ⟨inner, last, rfl, hinner, hlast⟩ := List.map_eq_append_iff.1 hrest
    obtain ⟨gap', rest, rfl, hnil⟩ := exists_gap_of_map_eq hlast
    obtain rfl := List.map_eq_nil_iff.1 hnil
    have hglued : gluedOr ((gap', .closing) :: ys) = false := by cases gap' <;> rfl
    have hinside : isLegible env (depth + 1) (inner ++ (gap', .closing) :: ys) = true ↔
        e.Fits env (depth + 1) ∧ isLegible env (depth + 1) ((gap', .closing) :: ys) = true :=
      ih ha hinner hglued
    have hafter : isLegible env (depth + 1) ((gap', .closing) :: ys) = isLegible env depth ys := by
      simp [isLegible, Lexeme.isLegible, Lexeme.depthAfter]
    rw [List.cons_append, List.append_assoc, List.singleton_append, isLegible, Bool.and_eq_true,
      Lexeme.depthAfter, hinside, hafter, Lexeme.isLegible, decide_eq_true_iff, Formula.Fits,
      and_assoc]
  | join op a b iha ihb =>
    obtain ⟨haa, hab, hop⟩ := ha
    obtain ⟨left, right, rfl, hleft, hright⟩ := List.map_eq_append_iff.1 hx
    obtain ⟨gap, rest, rfl, hrest⟩ := exists_gap_of_map_eq hright
    have hplain : op.isWord = false := by
      rcases hop with rfl | rfl | rfl | ⟨rfl, -⟩ <;> rfl
    have hglued : gluedOr ((gap, .operator op) :: (rest ++ ys)) = false := by
      cases gap with
      | cons c gap => rfl
      | nil => rcases hop with rfl | rfl | rfl | ⟨rfl, -⟩ <;> rfl
    have hafter : isLegible env depth ((gap, .operator op) :: (rest ++ ys)) =
        isLegible env depth (rest ++ ys) := by
      simp [isLegible, Lexeme.isLegible, Lexeme.depthAfter, hplain]
    rw [List.append_assoc, List.cons_append, iha haa hleft hglued, hafter, ihb hab hrest hy,
      Formula.Fits, and_assoc]

end Legible

private theorem Spelling.isLegible_iff {env : Variable → Int} {f : Formula} (ha : f.Arithmetic env)
    (s : Spelling f) : isLegible env 0 s.spaced = true ↔ f.Fits env 0 := by
  have h : isLegible env 0 (s.spaced ++ []) = true ↔ f.Fits env 0 ∧ isLegible env 0 [] = true :=
    isLegible_append_iff ha s.lexemes_eq rfl
  rw [List.append_nil] at h
  rw [h]
  exact and_iff_left rfl

/-! ### Values -/

section Values

variable {env : Variable → Int} {f a b : Formula}

private theorem eval_binary {op : BinaryOp} {x y : Expr} {p q : Int} (hx : x.eval = .ok (.int p))
    (hy : y.eval = .ok (.int q)) : (Expr.binary op x y).eval = Script.binary op (.int p) (.int q) := by
  rw [Expr.eval, hx, hy]
  rfl

private theorem eval_signed {minus : Bool} {e : Expr} {n : Int}
    (h : e.eval = .ok (.int (if minus then -n else n))) : (signed minus e).eval = .ok (.int n) := by
  cases minus with
  | false => exact h
  | true =>
    rw [signed, if_pos rfl, Expr.eval, h]
    change Except.ok (Value.int (- -n)) = _
    rw [Int.neg_neg]

private theorem minus_eq_isNegativeVariable (ha : a.level = .power) :
    a.minus env = a.isNegativeVariable env := by
  cases a with
  | join op a b => cases op <;> cases ha
  | _ => rfl

private theorem binary_pow (p : Int) {q : Int} (hq : 0 ≤ q) :
    Script.binary .pow (.int p) (.int q) = .ok (.int (Int.pow p q.toNat)) :=
  if_pos hq

private theorem neg_pow_of_odd (p : Int) {q : Int} (hq : 0 ≤ q) (hodd : q % 2 = 1) :
    Int.pow (-p) q.toNat = -Int.pow p q.toNat := by
  have hnat : Odd q.toNat := Nat.odd_iff.2 (by omega)
  exact hnat.neg_pow p

/-- If negative variables are raised to odd powers only, an arithmetic formula is worth its value. -/
theorem eval_body (hg : f.Grouped) (ha : f.Arithmetic env) (ho : f.OddPowers env) :
    (f.body env).eval = .ok (.int (if f.minus env then -f.value env else f.value env)) := by
  induction f with
  | number n => rfl
  | var x =>
    by_cases hneg : env x < 0
    · have hvalue : ((env x).natAbs : Int) = -env x := by omega
      simp [Formula.body, Formula.minus, Formula.value, Expr.eval, hneg, hvalue]
    · have hvalue : ((env x).natAbs : Int) = env x := by omega
      simp [Formula.body, Formula.minus, Formula.value, Expr.eval, hneg, hvalue]
  | bracket e ih => exact eval_signed (ih hg ha ho)
  | join op a b iha ihb =>
    obtain ⟨hga, hgb, hleft, -⟩ := hg
    obtain ⟨haa, hab, hop⟩ := ha
    obtain ⟨hoa, hob, hodd⟩ := ho
    have hbase := iha hga haa hoa
    have hright := eval_signed (ihb hgb hab hob)
    have hleft' := eval_signed hbase
    rcases hop with rfl | rfl | rfl | ⟨rfl, hexp⟩
    · exact eval_binary hleft' hright
    · exact eval_binary hleft' hright
    · exact eval_binary hleft' hright
    · have hpower : (Expr.binary .pow (a.body env) (b.expr env)).eval = _ := eval_binary hbase hright
      rw [binary_pow _ hexp] at hpower
      change (Expr.binary .pow (a.body env) (b.expr env)).eval = .ok (.int (if a.minus env then
        -Int.pow (a.value env) (b.value env).toNat else Int.pow (a.value env) (b.value env).toNat))
      cases hm : a.minus env with
      | false =>
        rw [hm] at hpower
        exact hpower
      | true =>
        -- the sign moves in front of the power, which an odd exponent allows
        have hatom : a.level = .power := by
          refine Formula.level_eq_power (hleft.resolve_right ?_)
          rintro ⟨⟨⟩, -⟩
        have hodd := hodd rfl (minus_eq_isNegativeVariable hatom ▸ hm)
        rw [hm, if_pos rfl, neg_pow_of_odd _ hexp hodd] at hpower
        exact hpower

/-- An even power of a negative variable does not come out as its value. -/
theorem odd_of_eval {x : Variable} (hx : env x < 0)
    (hb : (b.expr env).eval = .ok (.int (b.value env))) (hexp : 0 ≤ b.value env)
    (h : ((Formula.join .pow (.var x) b).expr env).eval =
      .ok (.int ((Formula.join .pow (.var x) b).value env))) : b.value env % 2 = 1 := by
  have hminus : (Formula.join .pow (.var x) b).minus env = true := by
    rw [Formula.minus]
    exact decide_eq_true hx
  have hpower : (Expr.binary .pow (.literal (.int (env x).natAbs)) (b.expr env)).eval =
      .ok (.int (Int.pow (env x).natAbs (b.value env).toNat)) := by
    rw [eval_binary rfl hb, binary_pow _ hexp]
  have hsigned : ((Formula.join .pow (.var x) b).expr env).eval =
      .ok (.int (-Int.pow (env x).natAbs (b.value env).toNat)) := by
    rw [Formula.expr, hminus]
    apply eval_signed
    rw [if_pos rfl, Int.neg_neg]
    exact hpower
  rw [hsigned] at h
  have hvalue : -Int.pow (env x).natAbs (b.value env).toNat =
      Int.pow (env x) (b.value env).toNat := Value.int.inj (Except.ok.inj h)
  by_contra hodd
  have heven : Even (b.value env).toNat := Nat.even_iff.2 (by omega)
  have habs : ((env x).natAbs : Int) = -env x := by omega
  have hsame : Int.pow (-env x) (b.value env).toNat = Int.pow (env x) (b.value env).toNat :=
    heven.neg_pow (env x)
  have hne : Int.pow (env x) (b.value env).toNat ≠ 0 := pow_ne_zero _ (Int.ne_of_lt hx)
  rw [habs, hsame] at hvalue
  omega

end Values

/-! ### Evaluating text -/

section Evaluating

variable {env : Variable → Int} {m : Machine} {f : Formula}

variable (env m) in
/-- The text of a formula is evaluated to its value, whatever blanks it has. -/
def EvaluatedRight (f : Formula) : Prop :=
  ∀ s : Spelling f, Macro.evaluate s.text m = .ok (.int (f.value env)) m

private theorem evaluatedRight_of_oddPowers (hv : Holds m.variables env) (hg : f.Grouped)
    (ha : f.Arithmetic env) (hf : f.Fits env 0) (ho : f.OddPowers env) : EvaluatedRight env m f := by
  intro s
  rw [s.evaluate_of_legible hg hv ((s.isLegible_iff ha).2 hf), Formula.expr,
    eval_signed (eval_body hg ha ho)]
  rfl

/-- A formula that is evaluated to its value fits, and its expression has that value. -/
theorem EvaluatedRight.eval (h : EvaluatedRight env m f) (hv : Holds m.variables env)
    (hg : f.Grouped) (ha : f.Arithmetic env) :
    f.Fits env 0 ∧ (f.expr env).eval = .ok (.int (f.value env)) := by
  have hright := h (.plain f)
  cases hl : isLegible env 0 (Spelling.plain f).spaced with
  | false =>
    obtain ⟨e, he⟩ := (Spelling.plain f).evaluate_of_illegible hv hl
    rw [he] at hright
    cases hright
  | true =>
    rw [(Spelling.plain f).evaluate_of_legible hg hv hl] at hright
    refine ⟨((Spelling.plain f).isLegible_iff ha).1 hl, ?_⟩
    cases he : (f.expr env).eval with
    | error e =>
      rw [he] at hright
      cases hright
    | ok v =>
      rw [he] at hright
      cases hright
      rfl

/-- If a formula fits and has only odd powers of negative variables, all of its parts are evaluated to
their values. -/
theorem evaluatedRight_parts {depth : Nat} (hv : Holds m.variables env) (hg : f.Grouped)
    (ha : f.Arithmetic env) (hf : f.Fits env depth) (ho : f.OddPowers env) :
    ∀ p ∈ f.parts, EvaluatedRight env m p := by
  induction f generalizing depth with
  | number n => exact List.forall_mem_singleton.2 (evaluatedRight_of_oddPowers hv hg ha hf ho)
  | var x => exact List.forall_mem_singleton.2 (evaluatedRight_of_oddPowers hv hg ha hf ho)
  | bracket e ih =>
    have hself := evaluatedRight_of_oddPowers hv hg ha (hf.mono (Nat.zero_le depth)) ho
    exact List.forall_mem_cons.2 ⟨hself, ih hg ha hf.2 ho⟩
  | join op a b iha ihb =>
    have hself := evaluatedRight_of_oddPowers hv hg ha (hf.mono (Nat.zero_le depth)) ho
    obtain ⟨hga, hgb, -⟩ := hg
    obtain ⟨haa, hab, -⟩ := ha
    obtain ⟨hoa, hob, -⟩ := ho
    have hparts := List.forall_mem_append.2 ⟨iha hga haa hf.1 hoa, ihb hgb hab hf.2 hob⟩
    exact List.forall_mem_cons.2 ⟨hself, hparts⟩

/-- If all parts of a formula are evaluated to their values, it has only odd powers of negative
variables. -/
theorem oddPowers_of_parts (hv : Holds m.variables env) (hg : f.Grouped) (ha : f.Arithmetic env)
    (h : ∀ p ∈ f.parts, EvaluatedRight env m p) : f.OddPowers env := by
  induction f with
  | number n => trivial
  | var x => trivial
  | bracket e ih => exact ih hg ha fun p hp ↦ h p (List.mem_cons_of_mem _ hp)
  | join op a b iha ihb =>
    have hself := h _ List.mem_cons_self
    have hwhole := (hself.eval hv hg ha).2
    obtain ⟨hga, hgb, -⟩ := hg
    obtain ⟨haa, hab, hop⟩ := ha
    have hoa := iha hga haa fun p hp ↦ h p (List.mem_cons_of_mem _ (List.mem_append_left _ hp))
    have hob := ihb hgb hab fun p hp ↦ h p (List.mem_cons_of_mem _ (List.mem_append_right _ hp))
    refine ⟨hoa, hob, ?_⟩
    rintro rfl hneg
    obtain ⟨x, rfl, hx⟩ := Formula.exists_of_isNegativeVariable hneg
    have hexp : 0 ≤ b.value env := by
      rcases hop with h | h | h | ⟨-, h⟩
      · cases h
      · cases h
      · cases h
      · exact h
    exact odd_of_eval hx (eval_signed (eval_body hgb hab hob)) hexp hwhole

/-- A formula and all of its parts are evaluated to their values exactly if its numbers have few
enough digits, its brackets are not nested too deeply, and no negative variable is raised to an even
power (`evaluateExpression`). -/
theorem evaluate_eq_value_iff (hv : Holds m.variables env) (hg : f.Grouped)
    (ha : f.Arithmetic env) :
    (∀ p ∈ f.parts, ∀ s : Spelling p, Macro.evaluate s.text m = .ok (.int (p.value env)) m) ↔
      f.Fits env 0 ∧ f.OddPowers env := by
  constructor
  · intro h
    have hself : f ∈ f.parts := by cases f <;> exact List.mem_cons_self
    exact ⟨(EvaluatedRight.eval (h f hself) hv hg ha).1, oddPowers_of_parts hv hg ha h⟩
  · rintro ⟨hf, ho⟩
    exact evaluatedRight_parts hv hg ha hf ho

end Evaluating

/-- The variable of the examples. -/
def variableX : Variable where
  name := "$x".toList
  isName := ⟨['x'], rfl, by decide, List.all_eq_true.1 (by decide)⟩

/-- A machine on which `$x` is minus two. -/
def minusTwo : Machine :=
  { Machine.fresh 1 10 10 with
    «variables» := (Machine.fresh 1 10 10).variables.put "$x".toList (.int (-2)) }

private theorem holds_minusTwo : Holds minusTwo.variables (integersOf minusTwo.variables) := by
  apply holds_integersOf
  intro p hp
  have htable : minusTwo.variables = [("$_RANDOM_MIN".toList, .int 0),
      ("$_RANDOM_MAX".toList, .int 65535), ("$x".toList, .int (-2))] := rfl
  rw [htable] at hp
  simp only [List.mem_cons, List.not_mem_nil, or_false] at hp
  rcases hp with rfl | rfl | rfl <;> exact ⟨_, rfl⟩

/-- The formula `3*($x+1)-$x^3`. -/
def cube : Formula :=
  .join .sub (.join .mul (.number 3) (.bracket (.join .add (.var variableX) (.number 1))))
    (.join .pow (.var variableX) (.number 3))

/-- The cube of a negative variable comes out right. -/
theorem evaluate_eq_value_iff_cube :
    cube.Grouped ∧ cube.Arithmetic (integersOf minusTwo.variables) ∧
    ∀ p ∈ cube.parts, ∀ s : Spelling p, Macro.evaluate s.text minusTwo =
      .ok (.int (p.value (integersOf minusTwo.variables))) minusTwo := by
  have hg : cube.Grouped := by decide
  have ha : cube.Arithmetic (integersOf minusTwo.variables) := by decide
  exact ⟨hg, ha, (evaluate_eq_value_iff holds_minusTwo hg ha).2 ⟨by decide, by decide⟩⟩

/-- The formula `$x^2`. -/
def square : Formula := .join .pow (.var variableX) (.number 2)

/-- The square of minus two comes out as minus four. -/
theorem square_of_negative : square.value (integersOf minusTwo.variables) = 4 ∧
    (Spelling.plain square).text = "$x^2".toList ∧
    Macro.evaluate "$x^2".toList minusTwo = .ok (.int (-4)) minusTwo := by
  have htext : (Spelling.plain square).text = "$x^2".toList := by decide
  have heval := (Spelling.plain square).evaluate_of_legible (m := minusTwo) (by decide)
    holds_minusTwo (by decide)
  rw [htext] at heval
  exact ⟨by decide, htext, heval⟩

end Deskhand.Script
