import Deskhand.Proofs.Spelling

/-!
# Guards of loops

A guard is made of numbers and variables, comparisons of them, and other guards joined by `&&` and
`||`. It is evaluated to one of its operands and not to a truth value, and the loop goes on only if the
result equals one. So a guard is followed exactly if its text can be told apart and its result is
one or zero.
-/

namespace Deskhand.Script

/-- What an operator gives where `&&` and `||` give one of their operands. -/
def Operator.select : Operator → Int → Int → Int
  | .and, a, b => if a ≠ 0 then b else a
  | .or, a, b => if a ≠ 0 then a else b
  | op, a, b => op.apply a b

private theorem Operator.select_of_compare {op : Operator} (hop : op.level = .compare)
    (a b : Int) : op.select a b = op.apply a b := by
  cases op with
  | or | and => cases hop
  | _ => rfl

private theorem Operator.select_of_word {op : Operator} (hop : op = .and ∨ op = .or) (a b : Int) :
    op.select a b = if decide (a ≠ 0) = (op == .and) then b else a := by
  rcases hop with rfl | rfl <;> by_cases ha : a = 0 <;> simp [select, ha]

namespace Formula

/-- Whether a formula is a number or a variable, with or without brackets. -/
def isOperand : Formula → Bool
  | .number _ => true
  | .var _ => true
  | .bracket e => e.isOperand
  | .join _ _ _ => false

/-- Whether a formula is a guard. -/
def isGuard : Formula → Bool
  | .number _ => true
  | .var _ => true
  | .bracket e => e.isGuard
  | .join op a b =>
    if op.isWord then a.isGuard && b.isGuard
    else op.level == .compare && (a.isOperand && b.isOperand)

/-- What a guard is evaluated to, a truth value counting as one or zero. -/
def outcome (env : Variable → Int) : Formula → Int
  | .number n => n
  | .var x => env x
  | .bracket e => e.outcome env
  | .join op a b => op.select (a.outcome env) (b.outcome env)

variable {env : Variable → Int} {f : Formula}

private theorem outcome_of_isOperand (hf : f.isOperand = true) : f.outcome env = f.value env := by
  induction f with
  | number n => rfl
  | var x => rfl
  | bracket e ih => exact ih hf
  | join op a b _ _ => cases hf

/-- The two ways in which formulas are joined to a guard. -/
theorem isGuard_join {op : Operator} {a b : Formula} (h : (join op a b).isGuard = true) :
    (op = .and ∨ op = .or) ∧ a.isGuard = true ∧ b.isGuard = true ∨
      op.level = .compare ∧ a.isOperand = true ∧ b.isOperand = true := by
  rw [isGuard] at h
  cases hw : op.isWord with
  | true =>
    rw [hw, if_pos rfl, Bool.and_eq_true] at h
    refine .inl ⟨?_, h⟩
    simpa [Operator.isWord] using hw
  | false =>
    rw [hw, if_neg Bool.false_ne_true, Bool.and_eq_true, Bool.and_eq_true, beq_iff_eq] at h
    exact .inr h

/-- A guard is true if its result is not zero. -/
theorem value_ne_zero_iff (hf : f.isGuard = true) : f.value env ≠ 0 ↔ f.outcome env ≠ 0 := by
  induction f with
  | number n => rfl
  | var x => rfl
  | bracket e ih => exact ih hf
  | join op a b iha ihb =>
    rw [value, outcome]
    rcases isGuard_join hf with ⟨hop, ha, hb⟩ | ⟨hop, ha, hb⟩
    · have ha := iha ha
      have hb := ihb hb
      rcases hop with rfl | rfl
      · by_cases h : a.outcome env = 0 <;> simp_all [Operator.apply, Operator.select]
      · by_cases h : a.outcome env = 0 <;> simp_all [Operator.apply, Operator.select]
    · rw [Operator.select_of_compare hop, outcome_of_isOperand ha, outcome_of_isOperand hb]

private theorem minus_eq_false (hpos : ∀ x, 0 ≤ env x) (f : Formula) : f.minus env = false := by
  induction f with
  | number n => rfl
  | var x => exact decide_eq_false (Int.not_lt.mpr (hpos x))
  | bracket e _ => rfl
  | join op a b iha _ => rw [minus, iha, Bool.and_false]

end Formula

/-! ### The result of a guard -/

/-- The value is an integer or the truth value that counts as it. -/
inductive CountsAs : Value → Int → Prop
  | int (n : Int) : CountsAs (.int n) n
  | bool (b : Bool) : CountsAs (.bool b) (if b then 1 else 0)

private theorem numberOrder?_int (p q : Int) : Value.numberOrder? (.int p) (.int q) =
    some (if p < q then .lt else if p = q then .eq else .gt) := rfl

private theorem equal_int (p q : Int) : (Value.int p).equal (.int q) = decide (p = q) := by
  rw [Value.equal, numberOrder?_int]
  · by_cases h : p < q
    · simp [h, Int.ne_of_lt h]
    · by_cases he : p = q <;> simp [h, he]
  all_goals simp

private theorem ordered_int (c : CompareOp) (p q : Int) : ordered c (.int p) (.int q) =
    .ok (c.holds (if p < q then .lt else if p = q then .eq else .gt)) := by
  rw [ordered]
  · rfl
  all_goals simp

section CountsAs

variable {v : Value} {n : Int}

/-- A value counts as true if it is not zero. -/
theorem CountsAs.truth (h : CountsAs v n) : v.truth = decide (n ≠ 0) := by
  cases h with
  | int n => by_cases hn : n = 0 <;> simp [Value.truth, hn]
  | bool b => cases b <;> rfl

private theorem CountsAs.equal_true (h : CountsAs v n) : v.equal (.bool true) = decide (n = 1) := by
  cases h with
  | int n => exact equal_int n 1
  | bool b => cases b <;> rfl

end CountsAs

/-- An operator of the level of comparisons compares integers. -/
theorem exists_compareValues {op : Operator} (hop : op.level = .compare) :
    ∃ c, (∀ x y, op.combine x y = .chain x [(c, y)]) ∧
      ∀ p q, compareValues c (.int p) (.int q) = .ok (decide (op.apply p q = 1)) := by
  cases op with
  | or | and | add | sub | mul | pow => cases hop
  | eq | ne =>
    refine ⟨_, fun _ _ ↦ rfl, fun p q ↦ ?_⟩
    rw [compareValues, equal_int]
    simp [Operator.apply]
  | lt | le | gt | ge =>
    refine ⟨_, fun _ _ ↦ rfl, fun p q ↦ (ordered_int _ p q).trans (congrArg Except.ok ?_)⟩
    rcases Int.lt_trichotomy p q with h | rfl | h
    · simp [CompareOp.holds, Operator.apply, h, Int.le_of_lt h, Int.lt_asymm h, Int.not_le.2 h]
    · simp [CompareOp.holds, Operator.apply]
    · simp [CompareOp.holds, Operator.apply, h, Int.le_of_lt h, Int.lt_asymm h, Int.not_le.2 h,
        Int.ne_of_gt h]

private theorem apply_eq_ite {op : Operator} (hop : op.level = .compare) (p q : Int) :
    op.apply p q = if decide (op.apply p q = 1) then 1 else 0 := by
  cases op with
  | or | and | add | sub | mul | pow => cases hop
  | _ =>
    simp only [Operator.apply]
    split <;> simp

section Guards

variable {env : Variable → Int} {f a b : Formula} {op : Operator}

private theorem eval_operand (hpos : ∀ x, 0 ≤ env x) (hf : f.isOperand = true) :
    (f.expr env).eval = .ok (.int (f.value env)) := by
  induction f with
  | number n => rfl
  | var x =>
    rw [Formula.expr, Formula.minus_eq_false hpos]
    change Except.ok (Value.int (env x).natAbs) = .ok (.int (env x))
    rw [Int.natAbs_of_nonneg (hpos x)]
  | bracket e ih => exact ih hf
  | join op a b _ _ => cases hf

/-- A comparison is evaluated to a truth value. -/
theorem eval_comparison (hpos : ∀ x, 0 ≤ env x) (hop : op.level = .compare)
    (ha : a.isOperand = true) (hb : b.isOperand = true) :
    ((Formula.join op a b).expr env).eval =
      .ok (.bool (decide (op.apply (a.value env) (b.value env) = 1))) := by
  obtain ⟨c, hcombine, hcompare⟩ := exists_compareValues hop
  have hright : op.groupsRight = false := by rw [Operator.groupsRight, hop]; rfl
  rw [Formula.expr_join hright, hcombine, Expr.eval, eval_operand hpos ha]
  change evalChain (.int (a.value env)) [(c, b.expr env)] = _
  rw [evalChain, eval_operand hpos hb]
  change (compareValues c (.int (a.value env)) (.int (b.value env)) >>= fun holds ↦
    if holds then evalChain (.int (b.value env)) [] else .ok (.bool false)) = _
  rw [hcompare, evalChain]
  cases decide (op.apply (a.value env) (b.value env) = 1) <;> rfl

/-- `&&` and `||` are evaluated to one of their operands. -/
theorem eval_word {x y : Expr} {v w : Value} (hop : op = .and ∨ op = .or) (hv : x.eval = .ok v)
    (hw : y.eval = .ok w) :
    (op.combine x y).eval = .ok (if v.truth = (op == .and) then w else v) := by
  rcases hop with rfl | rfl
  · change (Expr.and x y).eval = _
    rw [Expr.eval, hv, hw]
    change (if v.truth then Except.ok w else .ok v) = _
    cases v.truth <;> rfl
  · change (Expr.or x y).eval = _
    rw [Expr.eval, hv, hw]
    change (if v.truth then Except.ok v else .ok w) = _
    cases v.truth <;> rfl

/-- A guard is evaluated to its result. -/
theorem exists_eval_guard (hpos : ∀ x, 0 ≤ env x) (hf : f.isGuard = true) :
    ∃ v, (f.expr env).eval = .ok v ∧ CountsAs v (f.outcome env) := by
  induction f with
  | number n => exact ⟨_, rfl, .int n⟩
  | var x => exact ⟨_, eval_operand hpos rfl, .int (env x)⟩
  | bracket e ih => exact ih hf
  | join op a b iha ihb =>
    rw [Formula.outcome]
    rcases Formula.isGuard_join hf with ⟨hop, ha, hb⟩ | ⟨hop, ha, hb⟩
    · obtain ⟨v, hv, hcounts⟩ := iha ha
      obtain ⟨w, hw, hcounts'⟩ := ihb hb
      have hright : op.groupsRight = false := by rcases hop with rfl | rfl <;> rfl
      rw [Formula.expr_join hright, Operator.select_of_word hop]
      refine ⟨_, eval_word hop hv hw, ?_⟩
      rw [hcounts.truth]
      split
      · exact hcounts'
      · exact hcounts
    · refine ⟨_, eval_comparison hpos hop ha hb, ?_⟩
      have hcounts := CountsAs.bool (decide (op.apply (a.value env) (b.value env) = 1))
      rw [← apply_eq_ite hop] at hcounts
      rw [Operator.select_of_compare hop, Formula.outcome_of_isOperand ha,
        Formula.outcome_of_isOperand hb]
      exact hcounts

end Guards

/-! ### Loops -/

/-- In a state a loop executes its body and goes on if the condition holds, and ends otherwise. -/
def FollowsGuard (guard : Text) (holds : Bool) (m : Machine) : Prop :=
  ∀ execute body fuel, Macro.loopWhile execute guard body (fuel + 1) m =
    if holds then
      (Macro.bodyOnce execute body >>= fun _ ↦ Macro.loopWhile execute guard body fuel) m
    else .ok () m

/-- Whether a formula is true. -/
def Formula.isTrue (env : Variable → Int) (f : Formula) : Bool := decide (f.value env ≠ 0)

section Loops

variable {env : Variable → Int} {f : Formula} {m : Machine} {guard : Text} {v : Value}

private theorem followsGuard_of_ok (h : Macro.evaluate guard m = .ok v m) :
    FollowsGuard guard (v.equal (.bool true)) m := by
  intro execute body fuel
  rw [Macro.loopWhile, bind_of_ok h]
  cases v.equal (.bool true) <;> rfl

private theorem loopWhile_of_error {e : Halt Fault} (h : Macro.evaluate guard m = .error e m)
    (execute : Text → List Text → Macro Nat) (body : List Text) (fuel : Nat) :
    Macro.loopWhile execute guard body (fuel + 1) m = .error e m := by
  rw [Macro.loopWhile, bind_of_error h]

/-- A guard that is followed does not fail. -/
theorem FollowsGuard.ne_failed {holds : Bool} (h : FollowsGuard guard holds m) (fault : Fault) :
    Macro.evaluate guard m ≠ .error (.failed fault) m := by
  intro he
  have hpass := (loopWhile_of_error he _ _ _).symm.trans (h (fun _ _ ↦ pure 0) [] 0)
  cases holds <;> cases hpass

/-- A guard cannot be followed in two ways. -/
theorem FollowsGuard.unique {p q : Bool} (hp : FollowsGuard guard p m)
    (hq : FollowsGuard guard q m) : p = q := by
  have hpass := (hp (fun _ _ ↦ pure 0) [] 0).symm.trans (hq (fun _ _ ↦ pure 0) [] 0)
  cases p with
  | false =>
    cases q with
    | false => rfl
    | true => cases hpass
  | true =>
    cases q with
    | false => cases hpass
    | true => rfl

private theorem Spelling.followsGuard (s : Spelling f) (hv : Holds m.variables env)
    (hpos : ∀ x, 0 ≤ env x) (hg : f.Grouped) (hf : f.isGuard = true)
    (hl : isLegible env 0 s.spaced = true) :
    FollowsGuard s.text (decide (f.outcome env = 1)) m := by
  obtain ⟨v, heval, hcounts⟩ := exists_eval_guard hpos hf
  have hvalue : Macro.evaluate s.text m = .ok v m := by
    rw [s.evaluate_of_legible hg hv hl, heval]
    rfl
  rw [← hcounts.equal_true]
  exact followsGuard_of_ok hvalue

private theorem Formula.isTrue_eq_iff (hf : f.isGuard = true) :
    f.isTrue env = decide (f.outcome env = 1) ↔ f.outcome env = 0 ∨ f.outcome env = 1 := by
  have htrue : f.isTrue env = decide (f.outcome env ≠ 0) :=
    decide_eq_decide.2 (value_ne_zero_iff hf)
  rw [htrue, decide_eq_decide]
  omega

end Loops

/-! ### Whole loops -/

/-- Does work as long as a condition of the state holds, at most `fuel` times. -/
def asLongAsTrue (holds : Machine → Bool) (work : Macro Unit) : Nat → Macro Unit
  | 0 => throw .exhausted
  | fuel + 1 => fun m ↦
    if holds m then (work >>= fun _ ↦ asLongAsTrue holds work fuel) m else .ok () m

/-- A loop whose guard is followed in every state that it can reach goes on as long as the condition
holds. -/
theorem loopWhile_eq_asLongAsTrue {I : Machine → Prop} {guard : Text} {holds : Machine → Bool}
    {execute : Text → List Text → Macro Nat} {body : List Text}
    (hstep : ∀ m, I m → FollowsGuard guard (holds m) m)
    (hkeep : ∀ m m', I m → Macro.bodyOnce execute body m = .ok () m' → I m') (fuel : Nat)
    {m : Machine} (hm : I m) :
    Macro.loopWhile execute guard body fuel m =
      asLongAsTrue holds (Macro.bodyOnce execute body) fuel m := by
  induction fuel generalizing m with
  | zero => rfl
  | succ fuel ih =>
    rw [hstep m hm, asLongAsTrue]
    refine if_congr Iff.rfl ?_ rfl
    cases hbody : Macro.bodyOnce execute body m with
    | ok _ m' => rw [bind_of_ok hbody, bind_of_ok hbody, ih (hkeep m m' hm hbody)]
    | error e m' => rw [bind_of_error hbody, bind_of_error hbody]

/-- In a state the variables are not negative, and the guard can be told apart and its result is one or
zero. -/
structure Spelling.Serves {f : Formula} (s : Spelling f) (m : Machine) : Prop where
  integers : ∀ p ∈ m.variables, ∃ n : Nat, p.2 = .int n
  legible : isLegible (integersOf m.variables) 0 s.spaced = true
  result : f.outcome (integersOf m.variables) = 0 ∨ f.outcome (integersOf m.variables) = 1

/-- A loop that only reaches states in which its guard serves executes its body as long as the guard is
true. -/
theorem perform_loop_eq {f : Formula} (s : Spelling f) (hg : f.Grouped) (hf : f.isGuard = true)
    {line : Text} (hline : Command.ofLine line = .loop s.text) {I : Machine → Prop}
    (hI : ∀ m, I m → s.Serves m) {execute : Text → List Text → Macro Nat} {rest : List Text}
    (hkeep : ∀ m m', I m → Macro.bodyOnce execute (Macro.loopBody 1 rest).1 m = .ok () m' → I m')
    (fuel : Nat) {m : Machine} (hm : I m) :
    Macro.perform fuel execute rest (Command.ofLine line) m =
      (asLongAsTrue (fun m ↦ f.isTrue (integersOf m.variables))
          (Macro.bodyOnce execute (Macro.loopBody 1 rest).1) (fuel + 1) >>= fun _ ↦
        pure (Macro.loopBody 1 rest).2) m := by
  have hstep : ∀ m, I m → FollowsGuard s.text (f.isTrue (integersOf m.variables)) m := by
    intro m hm
    obtain ⟨hints, hlegible, hresult⟩ := hI m hm
    rw [(Formula.isTrue_eq_iff hf).2 hresult]
    exact s.followsGuard (holds_of_natural hints) (integersOf_nonneg hints) hg hf hlegible
  have hrun := loopWhile_eq_asLongAsTrue hstep hkeep (fuel + 1) hm
  rw [hline]
  change (Macro.loopWhile execute s.text (Macro.loopBody 1 rest).1 (fuel + 1) >>= fun _ ↦
    pure (Macro.loopBody 1 rest).2) m = _
  cases hloop : asLongAsTrue (fun m ↦ f.isTrue (integersOf m.variables))
      (Macro.bodyOnce execute (Macro.loopBody 1 rest).1) (fuel + 1) m with
  | ok _ m' => rw [bind_of_ok (hrun.trans hloop), bind_of_ok hloop]
  | error e m' => rw [bind_of_error (hrun.trans hloop), bind_of_error hloop]

/-- A guard that can be told apart is followed exactly if its result is one or zero. -/
theorem Spelling.followsGuard_iff {env : Variable → Int} {f : Formula} {m : Machine}
    (s : Spelling f) (hv : Holds m.variables env) (hpos : ∀ x, 0 ≤ env x) (hg : f.Grouped)
    (hf : f.isGuard = true) :
    FollowsGuard s.text (f.isTrue env) m ↔
      isLegible env 0 s.spaced = true ∧ (f.outcome env = 0 ∨ f.outcome env = 1) := by
  cases hl : isLegible env 0 s.spaced with
  | false =>
    obtain ⟨e, he⟩ := s.evaluate_of_illegible hv hl
    constructor
    · intro h
      exact absurd he (h.ne_failed _)
    · rintro ⟨⟨⟩, -⟩
  | true =>
    have hone := s.followsGuard hv hpos hg hf hl
    rw [← Formula.isTrue_eq_iff hf]
    constructor
    · intro h
      exact ⟨rfl, h.unique hone⟩
    · rintro ⟨-, h⟩
      rwa [h]

/-- In a state whose variables are not negative, a loop follows its guard exactly if the text of the
guard can be told apart and its result is one or zero (`evaluateExpression`). A whole loop that only
reaches such states executes its body as long as the guard is true. -/
theorem loop_follows_guard_iff {f : Formula} (s : Spelling f) (hg : f.Grouped)
    (hf : f.isGuard = true) :
    (∀ env m, Holds m.variables env → (∀ x, 0 ≤ env x) →
      (FollowsGuard s.text (f.isTrue env) m ↔
        isLegible env 0 s.spaced = true ∧ (f.outcome env = 0 ∨ f.outcome env = 1))) ∧
    ∀ line, Command.ofLine line = .loop s.text → ∀ (I : Machine → Prop) execute rest,
      (∀ m, I m → s.Serves m) →
      (∀ m m', I m → Macro.bodyOnce execute (Macro.loopBody 1 rest).1 m = .ok () m' → I m') →
      ∀ fuel m, I m → Macro.perform fuel execute rest (Command.ofLine line) m =
        (asLongAsTrue (fun m ↦ f.isTrue (integersOf m.variables))
            (Macro.bodyOnce execute (Macro.loopBody 1 rest).1) (fuel + 1) >>= fun _ ↦
          pure (Macro.loopBody 1 rest).2) m := by
  refine ⟨fun env m hv hpos ↦ s.followsGuard_iff hv hpos hg hf, ?_⟩
  intro line hline I execute rest hI hkeep fuel m hm
  exact perform_loop_eq s hg hf hline hI hkeep fuel hm

/-- The variable of the examples. -/
def variableI : Variable where
  name := "$i".toList
  isName := ⟨['i'], rfl, by decide, List.all_eq_true.1 (by decide)⟩

/-- A machine on which `$i` is two. -/
def two : Machine :=
  { Machine.fresh 1 10 10 with
    «variables» := (Machine.fresh 1 10 10).variables.put "$i".toList (.int 2) }

private theorem natural_two : ∀ p ∈ two.variables, ∃ n : Nat, p.2 = .int n := by
  have htable : two.variables = [("$_RANDOM_MIN".toList, .int (0 : Nat)),
      ("$_RANDOM_MAX".toList, .int (65535 : Nat)), ("$i".toList, .int (2 : Nat))] := rfl
  intro p hp
  rw [htable] at hp
  simp only [List.mem_cons, List.not_mem_nil, or_false] at hp
  rcases hp with rfl | rfl | rfl <;> exact ⟨_, rfl⟩

/-- The guard `($i<3)&&($i>1 || 0)`. -/
def between : Formula :=
  .join .and (.bracket (.join .lt (.var variableI) (.number 3)))
    (.bracket (.join .or (.join .gt (.var variableI) (.number 1)) (.number 0)))

/-- The guard with blanks around the last operator. -/
def betweenSpelling : Spelling between where
  spaced := [([], .opening), ([], .var variableI), ([], .operator .lt), ([], .number 3),
    ([], .closing), ([], .operator .and), ([], .opening), ([], .var variableI), ([], .operator .gt),
    ([], .number 1), ([' '], .operator .or), ([' '], .number 0), ([], .closing)]
  tail := []
  blanks := ⟨by simp [isGap], rfl⟩
  lexemes_eq := rfl

/-- With two for `$i` the guard is followed, and a loop that leaves `$i` alone goes on for ever. -/
theorem loop_follows_guard_iff_between : between.Grouped ∧ between.isGuard = true ∧
    betweenSpelling.text = "($i<3)&&($i>1 || 0)".toList ∧
    (∀ x, 0 ≤ integersOf two.variables x) ∧ between.isTrue (integersOf two.variables) = true ∧
    FollowsGuard betweenSpelling.text (between.isTrue (integersOf two.variables)) two ∧
    ∀ fuel, Macro.perform fuel (fun _ _ ↦ pure 0) []
        (Command.ofLine "WHILE ($i<3)&&($i>1 || 0)".toList) two =
      (asLongAsTrue (fun m ↦ between.isTrue (integersOf m.variables)) (pure ()) (fuel + 1) >>= fun _ ↦
        pure 0) two := by
  have hpos := integersOf_nonneg natural_two
  obtain ⟨hiff, hloop⟩ := loop_follows_guard_iff betweenSpelling (by decide) (by decide)
  refine ⟨by decide, by decide, by decide, hpos, by decide, ?_, fun fuel ↦ ?_⟩
  · exact (hiff _ two (holds_of_natural natural_two) hpos).2 ⟨by decide, by decide⟩
  · refine hloop "WHILE ($i<3)&&($i>1 || 0)".toList (by decide +kernel) (· = two) (fun _ _ ↦ pure 0) []
      ?_ ?_ fuel two rfl
    · rintro m rfl
      exact ⟨natural_two, by decide, by decide⟩
    · rintro m m' rfl hbody
      cases hbody
      rfl

/-- With two for `$i` a loop over `$i` ends at once, and `$i&&$i` is no expression. -/
theorem true_guards_not_followed :
    (Formula.var variableI).isTrue (integersOf two.variables) = true ∧
    (∀ execute body fuel, Macro.loopWhile execute "$i".toList body (fuel + 1) two = .ok () two) ∧
    (Formula.join .and (.var variableI) (.var variableI)).isTrue (integersOf two.variables) = true ∧
    ∃ e, Macro.evaluate "$i&&$i".toList two = .error (.failed (.expression e)) two := by
  have hpos := integersOf_nonneg natural_two
  have hholds := holds_of_natural natural_two
  have hends := (Spelling.plain (.var variableI)).followsGuard hholds hpos trivial rfl (by decide)
  have hrefused := Spelling.evaluate_of_illegible
    (.plain (.join .and (.var variableI) (.var variableI))) hholds (by decide)
  exact ⟨by decide, hends, by decide, hrefused⟩

end Deskhand.Script
