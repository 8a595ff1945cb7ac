import Deskhand.Proofs.NamePieces

/-!
# Formulas

A formula is made of numbers, variables, brackets and operators: what a script may write as an
expression of integers or as the guard of a loop. A formula is written with brackets where the usual
grouping needs them. Its value is that of arithmetic, where zero counts as false and a truth is one or
zero.
-/

namespace Deskhand.Script

/-- A variable. -/
structure Variable where
  name : Text
  isName : IsName name

/-- The operators of a formula. -/
inductive Operator where
  | or | and | eq | ne | lt | le | gt | ge | add | sub | mul | pow
  deriving DecidableEq

/-- How tightly a level groups. -/
def Expr.Level.rank : Expr.Level → Nat
  | .choice => 0
  | .or => 1
  | .and => 2
  | .not => 3
  | .compare => 4
  | .bitOr => 5
  | .bitAnd => 6
  | .shift => 7
  | .sum => 8
  | .term => 9
  | .factor => 10
  | .power => 11

namespace Operator

/-- How an operator is written. -/
def text : Operator → Text
  | .or => ['|', '|']
  | .and => ['&', '&']
  | .eq => ['=', '=']
  | .ne => ['!', '=']
  | .lt => ['<']
  | .le => ['<', '=']
  | .gt => ['>']
  | .ge => ['>', '=']
  | .add => ['+']
  | .sub => ['-']
  | .mul => ['*']
  | .pow => ['^']

/-- How an operator is written where it is evaluated. -/
def evaluated : Operator → Text
  | .or => ['o', 'r']
  | .and => ['a', 'n', 'd']
  | .pow => ['*', '*']
  | op => op.text

/-- The token of an operator. -/
def token : Operator → Token
  | .or => .name ['o', 'r']
  | .and => .name ['a', 'n', 'd']
  | .eq => .sign "=="
  | .ne => .sign "!="
  | .lt => .sign "<"
  | .le => .sign "<="
  | .gt => .sign ">"
  | .ge => .sign ">="
  | .add => .sign "+"
  | .sub => .sign "-"
  | .mul => .sign "*"
  | .pow => .sign "**"

/-- The level at which an operator joins its operands. -/
def level : Operator → Expr.Level
  | .or => .or
  | .and => .and
  | .eq | .ne | .lt | .le | .gt | .ge => .compare
  | .add | .sub => .sum
  | .mul => .term
  | .pow => .factor

/-- Whether operators of the same level group to the left. -/
def groupsLeft (op : Operator) : Bool := op.level != .compare && op.level != .factor

/-- Whether operators of the same level group to the right. -/
def groupsRight (op : Operator) : Bool := op.level == .factor

/-- The result of an operator on two integers. -/
def apply : Operator → Int → Int → Int
  | .or, a, b => if a ≠ 0 ∨ b ≠ 0 then 1 else 0
  | .and, a, b => if a ≠ 0 ∧ b ≠ 0 then 1 else 0
  | .eq, a, b => if a = b then 1 else 0
  | .ne, a, b => if a ≠ b then 1 else 0
  | .lt, a, b => if a < b then 1 else 0
  | .le, a, b => if a ≤ b then 1 else 0
  | .gt, a, b => if b < a then 1 else 0
  | .ge, a, b => if b ≤ a then 1 else 0
  | .add, a, b => a + b
  | .sub, a, b => a - b
  | .mul, a, b => a * b
  | .pow, a, b => Int.pow a b.toNat

end Operator

/-- A formula. -/
inductive Formula where
  | number (n : Nat)
  | var (x : Variable)
  | bracket (e : Formula)
  | join (op : Operator) (a b : Formula)

/-- What a formula is written with. -/
inductive Lexeme where
  | number (n : Nat)
  | var (x : Variable)
  | opening
  | closing
  | operator (op : Operator)

namespace Formula

/-- The level at which a formula is read. -/
def level : Formula → Expr.Level
  | .join op _ _ => op.level
  | _ => .power

/-- Brackets stand where the usual grouping needs them: operators of one level group to the left,
powers to the right, and comparisons not at all. -/
def Grouped : Formula → Prop
  | .number _ => True
  | .var _ => True
  | .bracket e => e.Grouped
  | .join op a b =>
    a.Grouped ∧ b.Grouped ∧
      (op.level.rank < a.level.rank ∨ op.groupsLeft = true ∧ a.level = op.level) ∧
      (op.level.rank < b.level.rank ∨ op.groupsRight = true ∧ b.level = op.level)

instance Grouped.decidable : (f : Formula) → Decidable f.Grouped
  | .number _ => inferInstanceAs (Decidable True)
  | .var _ => inferInstanceAs (Decidable True)
  | .bracket e => Grouped.decidable e
  | .join op a b =>
    have := Grouped.decidable a
    have := Grouped.decidable b
    inferInstanceAs (Decidable (a.Grouped ∧ b.Grouped ∧
      (op.level.rank < a.level.rank ∨ op.groupsLeft = true ∧ a.level = op.level) ∧
      (op.level.rank < b.level.rank ∨ op.groupsRight = true ∧ b.level = op.level)))

/-- The lexemes of a formula, in order. -/
def lexemes : Formula → List Lexeme
  | .number n => [.number n]
  | .var x => [.var x]
  | .bracket e => .opening :: (e.lexemes ++ [.closing])
  | .join op a b => a.lexemes ++ .operator op :: b.lexemes

/-- The value of a formula. -/
def value (env : Variable → Int) : Formula → Int
  | .number n => n
  | .var x => env x
  | .bracket e => e.value env
  | .join op a b => op.apply (a.value env) (b.value env)

end Formula

namespace Lexeme

/-- Whether an operand may begin here. -/
def starts : Lexeme → Bool
  | .number _ | .var _ | .opening => true
  | .closing | .operator _ => false

/-- Whether an operand may end here. -/
def ends : Lexeme → Bool
  | .number _ | .var _ | .closing => true
  | .opening | .operator _ => false

end Lexeme

/-- Operands and operators alternate, the next lexeme beginning an operand if one is `wanted`. -/
def Alternates : Bool → List Lexeme → Prop
  | wanted, [] => wanted = false
  | wanted, x :: xs => x.starts = wanted ∧ Alternates (!x.ends) xs

/-- In a formula operands and operators alternate. -/
theorem Formula.alternates_lexemes (f : Formula) {xs : List Lexeme} (h : Alternates false xs) :
    Alternates true (f.lexemes ++ xs) := by
  induction f generalizing xs with
  | number n => exact ⟨rfl, h⟩
  | var x => exact ⟨rfl, h⟩
  | bracket e ih =>
    have hclose : Alternates false (.closing :: xs) := ⟨rfl, h⟩
    rw [lexemes, List.cons_append, List.append_assoc]
    exact ⟨rfl, ih hclose⟩
  | join op a b iha ihb =>
    have hop : Alternates false (.operator op :: (b.lexemes ++ xs)) := ⟨rfl, ihb h⟩
    rw [lexemes, List.append_assoc]
    exact iha hop

end Deskhand.Script
