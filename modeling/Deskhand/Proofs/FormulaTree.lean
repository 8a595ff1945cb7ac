import Deskhand.Proofs.FormulaText
import Deskhand.Script.Expr

/-!
# The expression that a formula is read as

The tokens of a formula are read as an expression of the same shape, with one exception: the minus sign
of a negative variable is a sign in front of the whole power that the variable is the base of.
-/

namespace Deskhand.Script

open Deskhand.Script.Expr

/-- The expression that an operator joins two expressions to. -/
def Operator.combine (op : Operator) (a b : Expr) : Expr :=
  match op with
  | .or => .or a b
  | .and => .and a b
  | .eq => .chain a [(.eq, b)]
  | .ne => .chain a [(.ne, b)]
  | .lt => .chain a [(.lt, b)]
  | .le => .chain a [(.le, b)]
  | .gt => .chain a [(.gt, b)]
  | .ge => .chain a [(.ge, b)]
  | .add => .binary .add a b
  | .sub => .binary .sub a b
  | .mul => .binary .mul a b
  | .pow => .binary .pow a b

private theorem Operator.rank_level_le (op : Operator) :
    op.level.rank ≤ Expr.Level.factor.rank := by
  cases op <;> decide

/-- An expression with or without a minus sign in front. -/
def signed (minus : Bool) (e : Expr) : Expr := if minus then .unary .minus e else e

namespace Formula

variable (env : Variable → Int)

/-- Whether a formula is read with a minus sign in front: it is a negative variable or a power with one
as its base. -/
def minus : Formula → Bool
  | .number _ => false
  | .var x => decide (env x < 0)
  | .bracket _ => false
  | .join op a _ => op.groupsRight && a.minus

/-- The expression that a formula is read as, without the minus sign in front. -/
def body : Formula → Expr
  | .number n => .literal (.int n)
  | .var x => .literal (.int (env x).natAbs)
  | .bracket e => signed (e.minus env) e.body
  | .join op a b =>
    op.combine (if op.groupsRight then a.body else signed (a.minus env) a.body)
      (signed (b.minus env) b.body)

/-- The expression that a formula is read as. -/
def expr (f : Formula) : Expr := signed (f.minus env) (f.body env)

/-- The tokens of a formula. -/
def tokens (f : Formula) : List Token := f.lexemes.flatMap (Lexeme.tokens env)

/-- The tokens of a formula without the minus sign in front. -/
def bodyTokens : Formula → List Token
  | .number n => [.int n]
  | .var x => [.int (env x).natAbs]
  | .bracket e => .sign "(" :: (e.tokens env ++ [.sign ")"])
  | .join op a b => (if op.groupsRight then a.bodyTokens else a.tokens env) ++ op.token :: b.tokens env

variable {env}

private theorem tokens_bracket (e : Formula) :
    (bracket e).tokens env = .sign "(" :: (e.tokens env ++ [.sign ")"]) := by
  simp [tokens, lexemes, Lexeme.tokens]

private theorem tokens_join (op : Operator) (a b : Formula) :
    (join op a b).tokens env = a.tokens env ++ op.token :: b.tokens env := by
  simp [tokens, lexemes, Lexeme.tokens]

/-- The minus sign in front is the first token. -/
theorem tokens_eq (f : Formula) :
    f.tokens env = if f.minus env then .sign "-" :: f.bodyTokens env else f.bodyTokens env := by
  induction f with
  | number n => rfl
  | var x =>
    by_cases h : env x < 0
    · simp [tokens, lexemes, Lexeme.tokens, minus, bodyTokens, h]
    · simp [tokens, lexemes, Lexeme.tokens, minus, bodyTokens, h]
  | bracket e _ => exact tokens_bracket e
  | join op a b iha _ =>
    rw [tokens_join, bodyTokens, minus]
    cases op.groupsRight with
    | false => rfl
    | true =>
      rw [iha, Bool.true_and, if_pos rfl]
      cases a.minus env <;> rfl

variable (env) in
/-- No formula begins with the word for a negation, a closing bracket or nothing. -/
theorem exists_tokens_eq_cons (f : Formula) :
    ∃ t r, f.tokens env = t :: r ∧ isWord t "not" = false ∧ isSign t ")" = false := by
  induction f with
  | number n => exact ⟨_, _, rfl, rfl, rfl⟩
  | var x =>
    rw [tokens_eq]
    cases minus env (var x) <;> exact ⟨_, _, rfl, rfl, rfl⟩
  | bracket e _ => exact ⟨_, _, tokens_bracket e, rfl, rfl⟩
  | join op a b iha _ =>
    obtain ⟨t, r, hr, hword, hsign⟩ := iha
    rw [tokens_join, hr]
    exact ⟨t, _, rfl, hword, hsign⟩

variable (env) in
private theorem length_tokens_pos (f : Formula) : 0 < (f.tokens env).length := by
  obtain ⟨t, r, hr, -⟩ := f.exists_tokens_eq_cons env
  rw [hr, List.length_cons]
  omega

/-- An operator that does not group to the right joins the expressions of its operands. -/
theorem expr_join {op : Operator} (h : op.groupsRight = false) (a b : Formula) :
    (join op a b).expr env = op.combine (a.expr env) (b.expr env) := by
  rw [expr, minus, body, h]
  rfl

/-- A formula of the tightest level is a number, a variable or a bracket. -/
theorem level_eq_power {f : Formula} (h : Expr.Level.factor.rank < f.level.rank) :
    f.level = .power := by
  cases f with
  | join op a b => exact absurd h (Nat.not_lt.mpr op.rank_level_le)
  | _ => rfl

end Formula

/-! ### Where reading stops -/

/-- The tokens go on with nothing that joins at a level of rank `k` or more. -/
inductive Stops (k : Nat) : List Token → Prop
  | done : Stops k []
  | close (rest : List Token) : Stops k (.sign ")" :: rest)
  | operator {op : Operator} (h : op.level.rank < k) (rest : List Token) : Stops k (op.token :: rest)

section Stops

variable {k : Nat} {rest : List Token}

/-- Where reading stops, it stops at tighter levels. -/
theorem Stops.mono {l : Nat} (h : Stops k rest) (hl : k ≤ l) : Stops l rest := by
  cases h with
  | done => exact .done
  | close rest => exact .close rest
  | operator h rest => exact .operator (by omega) rest

/-- The levels at which operators join expressions and group to the left. -/
def Expr.Level.joins : Expr.Level → Bool
  | .or | .and | .bitOr | .bitAnd | .shift | .sum | .term => true
  | _ => false

private theorem joiner?_token (level : Expr.Level) (op : Operator) :
    joiner? level op.token =
      if op.level = level ∧ level.joins = true then some op.combine else none := by
  cases level <;> cases op <;> rfl

/-- Where reading stops, nothing is joined. -/
theorem parseJoined_of_stops {level : Expr.Level} (h : Stops level.rank rest) (e : Expr) (n : Nat) :
    parseJoined (n + 1) level e rest = some (e, rest) := by
  cases h with
  | done => rfl
  | close rest =>
    have hnone : joiner? level (.sign ")") = none := by cases level <;> rfl
    rw [parseJoined, hnone]
  | @operator op h rest =>
    have hnone : joiner? level op.token = none := by
      rw [joiner?_token, if_neg]
      rintro ⟨rfl, -⟩
      omega
    rw [parseJoined, hnone]

/-- Where reading stops, nothing is compared. -/
theorem parseChain_of_stops (h : Stops Expr.Level.compare.rank rest) (n : Nat) :
    parseChain (n + 1) rest = some ([], rest) := by
  have hnone : comparison? rest = none := by
    cases h with
    | done => rfl
    | close rest => rfl
    | @operator op h rest =>
      cases op with
      | or | and => rfl
      | _ => exact absurd h (by decide)
  rw [parseChain, hnone]

private theorem parseTail_of_stops (h : Stops k rest) (e : Expr) (n : Nat) :
    parseTail (n + 1) e rest = some (e, rest) := by
  cases h with
  | done => rfl
  | close rest => rfl
  | @operator op h rest => cases op <;> rfl

end Stops

/-! ### One level -/

section Levels

variable {env : Variable → Int} {level : Expr.Level} {f a b : Formula} {op : Operator}

variable (env) in
/-- The tokens of a formula are read as its expression at a level. -/
def Reads (level : Expr.Level) (f : Formula) : Prop :=
  ∀ rest n, Stops level.rank rest → 14 * (f.tokens env).length + 12 ≤ n + level.rank →
    parse n level (f.tokens env ++ rest) = some (f.expr env, rest)

variable (env) in
/-- The tokens of a formula are read at a level as the beginning of a longer expression. -/
def Chains (level : Expr.Level) (f : Formula) : Prop :=
  ∀ rest n, Stops (level.rank + 1) rest → 14 * (f.tokens env).length + 12 ≤ n + level.rank →
    ∃ k, n ≤ k + (f.tokens env).length ∧
      parse n level (f.tokens env ++ rest) = parseJoined k level (f.expr env) rest

private theorem rank_of_joins (h : level.joins = true) :
    level.rank ≤ 9 ∧ level.tighter.rank = level.rank + 1 := by
  cases level with
  | choice | not | compare | factor | power => cases h
  | or | and | bitOr | bitAnd | shift | sum | term => decide

private theorem groupsRight_of_joins (h : op.level.joins = true) : op.groupsRight = false := by
  cases op with
  | eq | ne | lt | le | gt | ge | pow => cases h
  | or | and | add | sub | mul => rfl

private theorem parse_of_joins (h : level.joins = true) (n : Nat) {ts rest : List Token} {e : Expr}
    (he : parse n level.tighter ts = some (e, rest)) :
    parse (n + 1) level ts = parseJoined n level e rest := by
  unfold parse
  cases level with
  | choice | not | compare | factor | power => cases h
  | _ =>
    dsimp only
    rw [he]

private theorem Reads.chains (hl : level.joins = true) (h : Reads env level.tighter f) :
    Chains env level f := by
  intro rest n hs hn
  obtain ⟨hrank, htighter⟩ := rank_of_joins hl
  have hpos := f.length_tokens_pos env
  cases n with
  | zero => omega
  | succ n =>
    refine ⟨n, by omega, parse_of_joins hl n (h rest n (htighter ▸ hs) (by omega))⟩

/-- An operator makes a longer expression longer. -/
theorem Chains.join (hl : op.level.joins = true) (ha : Chains env op.level a)
    (hb : Reads env op.level.tighter b) : Chains env op.level (.join op a b) := by
  intro rest n hs hn
  obtain ⟨hrank, htighter⟩ := rank_of_joins hl
  rw [Formula.tokens_join, List.length_append, List.length_cons] at hn
  obtain ⟨k, hk, hparse⟩ := ha (op.token :: (b.tokens env ++ rest)) n
    (.operator (Nat.lt_succ_self _) _) (by omega)
  cases k with
  | zero => omega
  | succ k =>
    have hright := hb rest k (htighter ▸ hs) (by omega)
    refine ⟨k, ?_, ?_⟩
    · rw [Formula.tokens_join, List.length_append, List.length_cons]
      omega
    · rw [Formula.tokens_join, List.append_assoc, List.cons_append, hparse, parseJoined,
        joiner?_token, if_pos ⟨rfl, hl⟩]
      dsimp only
      rw [hright, Formula.expr_join (groupsRight_of_joins hl)]

private theorem Chains.reads (hl : level.joins = true) (h : Chains env level f) :
    Reads env level f := by
  intro rest n hs hn
  obtain ⟨hrank, -⟩ := rank_of_joins hl
  obtain ⟨k, hk, hparse⟩ := h rest n (hs.mono (Nat.le_succ _)) hn
  cases k with
  | zero => omega
  | succ k => rw [hparse, parseJoined_of_stops hs]

/-- A formula without comparisons is read where comparisons are. -/
theorem Reads.compare (h : Reads env .bitOr f) : Reads env .compare f := by
  intro rest n hs hn
  cases n with
  | zero => exact absurd hn (by simp [Expr.Level.rank])
  | succ n =>
    have hfirst := h rest n (hs.mono (by decide)) (by simp only [Expr.Level.rank] at hn ⊢; omega)
    cases n with
    | zero => cases hfirst
    | succ n =>
      unfold parse
      dsimp only
      rw [hfirst]
      dsimp only
      rw [parseChain_of_stops hs]

private theorem exists_comparison (hop : op.level = .compare) :
    ∃ c, (∀ rest, comparison? (op.token :: rest) = some (c, rest)) ∧
      ∀ x y, op.combine x y = .chain x [(c, y)] := by
  cases op with
  | or | and | add | sub | mul | pow => cases hop
  | eq | ne | lt | le | gt | ge => exact ⟨_, fun _ ↦ rfl, fun _ _ ↦ rfl⟩

/-- Two formulas are compared. -/
theorem Reads.join_compare (hop : op.level = .compare) (ha : Reads env .bitOr a)
    (hb : Reads env .bitOr b) : Reads env .compare (.join op a b) := by
  intro rest n hs hn
  rw [Formula.tokens_join, List.length_append, List.length_cons] at hn
  have hrank : Expr.Level.compare.rank = 4 := rfl
  have hrank' : Expr.Level.bitOr.rank = 5 := rfl
  obtain ⟨n, rfl⟩ : ∃ m, n = m + 3 := ⟨n - 3, by omega⟩
  have hfirst := ha (op.token :: (b.tokens env ++ rest)) (n + 2)
    (.operator (by rw [hop]; decide) _) (by omega)
  have hsecond := hb rest (n + 1) (hs.mono (by decide)) (by omega)
  obtain ⟨c, hc, hcombine⟩ := exists_comparison hop
  have hchain : parseChain (n + 2) (op.token :: (b.tokens env ++ rest)) =
      some ([(c, b.expr env)], rest) := by
    rw [parseChain, hc]
    dsimp only
    rw [hsecond]
    dsimp only
    rw [parseChain_of_stops hs n]
    rfl
  rw [Formula.tokens_join, List.append_assoc, List.cons_append]
  unfold parse
  dsimp only
  rw [hfirst]
  dsimp only
  rw [hchain, Formula.expr_join (by rw [Operator.groupsRight, hop]; rfl), hcombine]

/-- A formula without a negation is read where negations are. -/
theorem Reads.not (h : Reads env .compare f) : Reads env .not f := by
  intro rest n hs hn
  obtain ⟨t, r, hr, hword, -⟩ := f.exists_tokens_eq_cons env
  have hrank : Expr.Level.not.rank = 3 ∧ Expr.Level.compare.rank = 4 := ⟨rfl, rfl⟩
  obtain ⟨n, rfl⟩ : ∃ m, n = m + 1 := ⟨n - 1, by omega⟩
  have hparse := h rest n (hs.mono (by omega)) (by omega)
  rw [hr, List.cons_append] at hparse ⊢
  unfold parse
  dsimp only
  rw [hword, if_neg Bool.false_ne_true, hparse]

/-- A formula without a choice is read where choices are. -/
theorem Reads.choice (h : Reads env .or f) : Reads env .choice f := by
  intro rest n hs hn
  have hrank : Expr.Level.choice.rank = 0 ∧ Expr.Level.or.rank = 1 := ⟨rfl, rfl⟩
  obtain ⟨n, rfl⟩ : ∃ m, n = m + 1 := ⟨n - 1, by omega⟩
  have hparse := h rest n (hs.mono (by omega)) (by omega)
  unfold parse
  dsimp only
  rw [hparse]
  cases hs with
  | done => rfl
  | close rest => rfl
  | operator h rest => exact absurd h (Nat.not_lt_zero _)

private theorem Reads.loosen (hl : level.rank < Expr.Level.factor.rank)
    (h : Reads env level.tighter f) :
    Reads env level f := by
  cases level with
  | choice => exact h.choice
  | not => exact h.not
  | compare => exact h.compare
  | factor => exact absurd hl (lt_irrefl _)
  | power => exact absurd hl (by decide)
  | _ => exact (h.chains rfl).reads rfl

private theorem Expr.Level.rank_injective : Function.Injective Expr.Level.rank := by
  intro l l' h
  cases l <;> cases l' <;> first | rfl | cases h

private theorem Expr.Level.rank_tighter (h : level.rank < Expr.Level.power.rank) :
    level.tighter.rank = level.rank + 1 := by
  cases level with
  | power => exact absurd h (lt_irrefl _)
  | _ => rfl

/-- What is read at a level is read at all looser ones. -/
theorem Reads.descend {loose : Expr.Level} (hl : level.rank ≤ Expr.Level.factor.rank)
    (hle : loose.rank ≤ level.rank) (h : Reads env level f) : Reads env loose f := by
  have hpower : Expr.Level.factor.rank < Expr.Level.power.rank := by decide
  obtain ⟨k, hk⟩ := Nat.exists_eq_add_of_le hle
  induction k generalizing loose with
  | zero =>
    have heq : loose = level := Expr.Level.rank_injective (by omega)
    rwa [heq]
  | succ k ih =>
    have htighter : loose.tighter.rank = loose.rank + 1 := Expr.Level.rank_tighter (by omega)
    exact (ih (by omega) (by omega)).loosen (by omega)

/-! ### Powers -/

variable (env) in
/-- The tokens of a formula are read as an atom, without the minus sign in front. -/
def ReadsAtom (f : Formula) : Prop :=
  ∀ rest n, 14 * (f.bodyTokens env).length ≤ n + 10 →
    parseAtom n (f.bodyTokens env ++ rest) = some (f.body env, rest)

private theorem readsAtom_number (n : Nat) : ReadsAtom env (.number n) := by
  intro rest k hk
  cases k with
  | zero => exact absurd hk (by simp [Formula.bodyTokens])
  | succ k => rfl

private theorem readsAtom_var (x : Variable) : ReadsAtom env (.var x) := by
  intro rest k hk
  cases k with
  | zero => exact absurd hk (by simp [Formula.bodyTokens])
  | succ k => rfl

/-- What is read in brackets is an atom. -/
theorem Reads.atom (h : Reads env .choice f) : ReadsAtom env (.bracket f) := by
  intro rest n hn
  obtain ⟨t, r, hr, -, hsign⟩ := f.exists_tokens_eq_cons env
  rw [Formula.bodyTokens, List.length_cons, List.length_append, List.length_singleton] at hn
  have hrank : Expr.Level.choice.rank = 0 := rfl
  obtain ⟨n, rfl⟩ : ∃ m, n = m + 2 := ⟨n - 2, by omega⟩
  have hparse := h (.sign ")" :: rest) n (.close rest) (by omega)
  have hitems : parseItems (n + 1) ")" (f.tokens env ++ .sign ")" :: rest) =
      some ([f.expr env], false, rest) := by
    rw [hr, List.cons_append] at hparse ⊢
    rw [parseItems, hsign, if_neg Bool.false_ne_true, hparse]
    rfl
  rw [Formula.bodyTokens, List.cons_append, List.append_assoc, List.singleton_append]
  rw [parseAtom, hitems]
  rfl

variable (env) in
/-- The tokens of a formula are read as a power, without the minus sign in front. -/
def ReadsPower (f : Formula) : Prop :=
  ∀ rest n, Stops Expr.Level.factor.rank rest → 14 * (f.bodyTokens env).length ≤ n + 9 →
    parse n .power (f.bodyTokens env ++ rest) = some (f.body env, rest)

/-- An atom that no power follows is read as a power. -/
theorem ReadsAtom.power (h : ReadsAtom env f) : ReadsPower env f := by
  intro rest n hs hn
  cases n with
  | zero => cases h rest 0 (by omega)
  | succ n =>
    have hatom := h rest n (by omega)
    cases n with
    | zero => cases hatom
    | succ n =>
      unfold parse
      dsimp only
      rw [hatom]
      dsimp only
      rw [parseTail_of_stops hs]
      cases hs with
      | done => rfl
      | close rest => rfl
      | @operator op h rest =>
        cases op with
        | pow => exact absurd h (lt_irrefl _)
        | _ => rfl

/-- A base and what is read as its exponent are read as a power. -/
theorem ReadsAtom.join_pow (ha : ReadsAtom env a) (hb : Reads env .factor b) :
    ReadsPower env (.join .pow a b) := by
  intro rest n hs hn
  have hrank : Expr.Level.factor.rank = 10 := rfl
  have htokens : (Formula.join .pow a b).bodyTokens env =
      a.bodyTokens env ++ .sign "**" :: b.tokens env := rfl
  rw [htokens, List.length_append, List.length_cons] at hn
  obtain ⟨n, rfl⟩ : ∃ m, n = m + 2 := ⟨n - 2, by omega⟩
  have hatom := ha (.sign "**" :: (b.tokens env ++ rest)) (n + 1) (by omega)
  have htail : parseTail (n + 1) (a.body env) (.sign "**" :: (b.tokens env ++ rest)) =
      some (a.body env, .sign "**" :: (b.tokens env ++ rest)) := rfl
  have hexponent := hb rest (n + 1) hs (by omega)
  rw [htokens, List.append_assoc, List.cons_append]
  unfold parse
  dsimp only
  rw [hatom]
  dsimp only
  rw [htail]
  dsimp only
  rw [hexponent]
  rfl

/-- The minus sign in front is read before the power. -/
theorem ReadsPower.factor (h : ReadsPower env f)
    (hhead : ∃ t r, f.bodyTokens env = t :: r ∧ unary? t = none) : Reads env .factor f := by
  -- without the minus sign
  have hbody : ∀ rest n, Stops Expr.Level.factor.rank rest → 14 * (f.bodyTokens env).length ≤ n + 8 →
      parse n .factor (f.bodyTokens env ++ rest) = some (f.body env, rest) := by
    intro rest n hs hn
    obtain ⟨t, r, hr, hunary⟩ := hhead
    cases n with
    | zero => cases h rest 0 hs (by omega)
    | succ n =>
      have hpower := h rest n hs (by omega)
      rw [hr, List.cons_append] at hpower ⊢
      unfold parse
      dsimp only
      rw [hunary]
      exact hpower
  intro rest n hs hn
  have hrank : Expr.Level.factor.rank = 10 := rfl
  rw [Formula.tokens_eq] at hn ⊢
  rw [Formula.expr]
  cases hminus : f.minus env with
  | false =>
    rw [hminus, if_neg Bool.false_ne_true] at hn
    exact hbody rest n hs (by omega)
  | true =>
    rw [hminus, if_pos rfl, List.length_cons] at hn
    rw [if_pos rfl, List.cons_append]
    cases n with
    | zero => omega
    | succ n =>
      unfold parse
      dsimp only
      rw [show unary? (.sign "-") = some .minus from rfl]
      dsimp only
      rw [hbody rest n hs (by omega)]
      rfl

/-! ### All levels -/

variable (env) in
/-- The tokens of a formula are read as its expression at its own level and at all looser ones. -/
structure Readable (f : Formula) : Prop where
  reads : ∀ level : Expr.Level, level.rank ≤ f.level.rank → level.rank ≤ Expr.Level.factor.rank →
    Reads env level f
  chains : ∀ level : Expr.Level, level.joins = true → level.rank ≤ f.level.rank → Chains env level f
  atom : f.level = .power → ReadsAtom env f

/-- What is read at its tightest level is read at all looser ones. -/
theorem Readable.of_reads {top : Expr.Level}
    (htop : top.rank = min f.level.rank Expr.Level.factor.rank) (h : Reads env top f)
    (hchain : top.joins = true → Chains env top f) (hatom : f.level = .power → ReadsAtom env f) :
    Readable env f := by
  have hreads : ∀ level : Expr.Level, level.rank ≤ f.level.rank → level.rank ≤ Expr.Level.factor.rank →
      Reads env level f := fun level hl hf ↦ h.descend (by omega) (by omega)
  refine ⟨hreads, ?_, hatom⟩
  intro level hl hle
  have hrank : Expr.Level.factor.rank = 10 := rfl
  obtain ⟨hnine, htighter⟩ := rank_of_joins hl
  by_cases heq : level = top
  · rw [heq] at hl ⊢
    exact hchain hl
  · have hne : level.rank ≠ top.rank := fun he ↦ heq (Expr.Level.rank_injective he)
    exact (hreads level.tighter (by omega) (by omega)).chains hl

private theorem Formula.exists_bodyTokens_eq_cons (h : f.level = .power) :
    ∃ t r, f.bodyTokens env = t :: r ∧ unary? t = none := by
  cases f with
  | number n => exact ⟨_, _, rfl, rfl⟩
  | var x => exact ⟨_, _, rfl, rfl⟩
  | bracket e => exact ⟨_, _, rfl, rfl⟩
  | join op a b => cases op <;> cases h

private theorem ReadsAtom.readable (hf : f.level = .power) (h : ReadsAtom env f) :
    Readable env f := by
  refine .of_reads ?_ (h.power.factor (f.exists_bodyTokens_eq_cons hf))
    (fun hl ↦ by cases hl) fun _ ↦ h
  rw [hf]
  rfl

private theorem Operator.level_cases (op : Operator) :
    op.level.joins = true ∨ op.level = .compare ∨ op = .pow := by
  cases op <;> decide

/-- Readable operands that are grouped as usual are joined to a readable formula. -/
theorem Readable.join (ha : Readable env a) (hb : Readable env b)
    (hleft : op.level.rank < a.level.rank ∨ op.groupsLeft = true ∧ a.level = op.level)
    (hright : op.level.rank < b.level.rank ∨ op.groupsRight = true ∧ b.level = op.level) :
    Readable env (.join op a b) := by
  have htop : op.level.rank = min (Formula.join op a b).level.rank Expr.Level.factor.rank :=
    (min_eq_left op.rank_level_le).symm
  have hatom : (Formula.join op a b).level = .power → ReadsAtom env (.join op a b) := by
    intro h
    cases op <;> cases h
  have hlevel : op.level.rank ≤ a.level.rank := by
    rcases hleft with h | ⟨-, h⟩
    · exact h.le
    · rw [h]
  rcases op.level_cases with hl | hop | rfl
  · -- an operator that groups to the left
    obtain ⟨hnine, htighter⟩ := rank_of_joins hl
    have hrank : Expr.Level.factor.rank = 10 := rfl
    have hstrict : op.level.rank < b.level.rank := by
      refine hright.resolve_right ?_
      rw [groupsRight_of_joins hl]
      rintro ⟨⟨⟩, -⟩
    have hchain : Chains env op.level (.join op a b) :=
      .join hl (ha.chains op.level hl hlevel) (hb.reads op.level.tighter (by omega) (by omega))
    exact .of_reads htop (hchain.reads hl) (fun _ ↦ hchain) hatom
  · -- a comparison
    have hrank : op.level.rank = 4 ∧ Expr.Level.bitOr.rank = 5 ∧ Expr.Level.factor.rank = 10 := by
      rw [hop]
      exact ⟨rfl, rfl, rfl⟩
    have hstrict : op.level.rank < a.level.rank := by
      refine hleft.resolve_right ?_
      rw [Operator.groupsLeft, hop]
      rintro ⟨⟨⟩, -⟩
    have hstrict' : op.level.rank < b.level.rank := by
      refine hright.resolve_right ?_
      rw [Operator.groupsRight, hop]
      rintro ⟨⟨⟩, -⟩
    have hcompare : Reads env .compare (.join op a b) := .join_compare hop
      (ha.reads .bitOr (by omega) (by omega)) (hb.reads .bitOr (by omega) (by omega))
    rw [hop] at htop
    exact .of_reads htop hcompare (fun hl ↦ by cases hl) hatom
  · -- a power
    have hbase : a.level = .power := by
      refine Formula.level_eq_power (hleft.resolve_right ?_)
      rintro ⟨⟨⟩, -⟩
    have hexponent : Expr.Level.factor.rank ≤ b.level.rank := by
      rcases hright with h | ⟨-, h⟩
      · exact h.le
      · rw [h]
        rfl
    have hpower := (ha.atom hbase).join_pow (hb.reads .factor hexponent le_rfl)
    refine .of_reads htop (hpower.factor ?_) (fun hl ↦ by cases hl) hatom
    obtain ⟨t, r, hr, hunary⟩ := a.exists_bodyTokens_eq_cons hbase
    refine ⟨t, r ++ .sign "**" :: b.tokens env, ?_, hunary⟩
    change a.bodyTokens env ++ _ = _
    rw [hr]
    rfl

private theorem Formula.Grouped.readable (hg : f.Grouped) : Readable env f := by
  induction f with
  | number n => exact (readsAtom_number n).readable rfl
  | var x => exact (readsAtom_var x).readable rfl
  | bracket e ih =>
    have he : Reads env .choice e := (ih hg).reads .choice (Nat.zero_le _) (Nat.zero_le _)
    exact he.atom.readable rfl
  | join op a b iha ihb =>
    obtain ⟨hga, hgb, hleft, hright⟩ := hg
    exact (iha hga).join (ihb hgb) hleft hright

/-- The expression that the tokens of a formula write. -/
theorem Formula.Grouped.ofTokens? (hg : f.Grouped) :
    Expr.ofTokens? (f.tokens env) = some (f.expr env) := by
  have hreads : Reads env .choice f := hg.readable.reads .choice (Nat.zero_le _) (Nat.zero_le _)
  have hrank : Expr.Level.choice.rank = 0 := rfl
  have hparse := hreads [] (20 * ((f.tokens env).length + 1)) .done (by omega)
  rw [List.append_nil] at hparse
  obtain ⟨t, r, hr, -⟩ := f.exists_tokens_eq_cons env
  have hall : parseAll (20 * ((f.tokens env).length + 1)) ((f.tokens env).length + 1)
      (f.tokens env) = some ([f.expr env], false) := by
    rw [hr] at hparse ⊢
    rw [parseAll, hparse]
    simp
  rw [Expr.ofTokens?, hall]

end Levels

end Deskhand.Script
