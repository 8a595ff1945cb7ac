import Deskhand.Script.Builtin
import Deskhand.Script.Expr

/-!
# The value of an expression

Operands are evaluated from left to right and the first failure is the failure of the whole. The
right side of `and` and `or`, the branch not taken, and the rest of a chain after a comparison that
does not hold are not evaluated at all.
-/

namespace Deskhand.Script

mutual

/-- The value of an expression. -/
def Expr.eval : Expr → Except ExprError Value
  | .literal v => .ok v
  | .name n =>
    match Builtin.ofName? n with
    | some f => .ok (.builtin f)
    | none => .error (.unbound n)
  | .list items => do .ok (.list (← evalItems items))
  | .tuple items => do .ok (.tuple (← evalItems items))
  | .unary op e => do Script.unary op (← e.eval)
  | .binary op a b => do
    let x ← a.eval
    let y ← b.eval
    Script.binary op x y
  | .not e => do .ok (.bool !(← e.eval).truth)
  | .and a b => do
    let x ← a.eval
    if x.truth then b.eval else .ok x
  | .or a b => do
    let x ← a.eval
    if x.truth then .ok x else b.eval
  | .choice a c b => do
    let x ← c.eval
    if x.truth then a.eval else b.eval
  | .chain first rest => do evalChain (← first.eval) rest
  | .index e position => do
    let x ← e.eval
    let i ← position.eval
    Script.index x i
  | .call f args => do
    let g ← f.eval
    let xs ← evalItems args
    Script.call g xs

/-- The values of several expressions, from left to right. -/
def evalItems : List Expr → Except ExprError (List Value)
  | [] => .ok []
  | e :: rest => do
    let v ← e.eval
    let vs ← evalItems rest
    .ok (v :: vs)

/-- The value of a chain of comparisons whose left end has the value `left`. -/
def evalChain (left : Value) : List (CompareOp × Expr) → Except ExprError Value
  | [] => .ok (.bool true)
  | (op, e) :: rest => do
    let right ← e.eval
    let holds ← compareValues op left right
    if holds then evalChain right rest else .ok (.bool false)

end

/-- The value of the expression a text writes. -/
def evaluate (t : Text) : Except ExprError Value :=
  if t.any (·.toNat == 0) then .error .zeroCharacter
  else
    match Expr.ofText? t with
    | some e => e.eval
    | none => .error .malformed

end Deskhand.Script
