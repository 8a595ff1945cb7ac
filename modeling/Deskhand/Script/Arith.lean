import Deskhand.Number.Bits
import Deskhand.Script.ExprError

/-!
# Operators on values

Integers are exact and of any size; as soon as one operand is a binary number the other is turned
into one. Sums also join sequences, products also repeat them.
-/

namespace Deskhand.Script

/-- Operators with two operands. -/
inductive BinaryOp where
  | add | sub | mul | div | floorDiv | mod | pow | shiftLeft | shiftRight | bitAnd | bitOr
  deriving DecidableEq

/-- Operators with one operand. -/
inductive UnaryOp where
  | plus | minus | invert
  deriving DecidableEq

/-- Comparisons. -/
inductive CompareOp where
  | eq | ne | lt | le | gt | ge | isIn | notIn | same | notSame
  deriving DecidableEq

/-- How a message names an operator. -/
def BinaryOp.sign : BinaryOp → Text
  | .add => "+"
  | .sub => "-"
  | .mul => "*"
  | .div => "/"
  | .floorDiv => "//"
  | .mod => "%"
  | .pow => "** or pow()"
  | .shiftLeft => "<<"
  | .shiftRight => ">>"
  | .bitAnd => "&"
  | .bitOr => "|"

/-- How a message names an operator. -/
def UnaryOp.sign : UnaryOp → Text
  | .plus => "+"
  | .minus => "-"
  | .invert => "~"

/-- How a message names a comparison. -/
def CompareOp.sign : CompareOp → Text
  | .eq => "=="
  | .ne => "!="
  | .lt => "<"
  | .le => "<="
  | .gt => ">"
  | .ge => ">="
  | .isIn => "in"
  | .notIn => "not in"
  | .same => "is"
  | .notSame => "is not"

/-- Integers outside this range are no positions or counts. -/
def isCount (n : Int) : Bool := -0x8000000000000000 ≤ n && n < 0x8000000000000000

/-- An integer as a binary number, refused if it is too large. -/
def floatOfInt (n : Int) : Except ExprError Binary64 :=
  match Binary64.ofInt n with
  | .infinite _ => .error .tooLargeForFloat
  | x => .ok x

/-- A number as a binary number, `none` if it is none. -/
def float? : Value → Option (Except ExprError Binary64)
  | .float x => some (.ok x)
  | v => v.int?.map floatOfInt

/-- The quotient of two integers, rounded once. -/
def divideInt (a b : Int) : Except ExprError Value :=
  if b == 0 then .error .divisionByZero
  else
    match Binary64.ofRatio ((a < 0) != (b < 0)) a.natAbs b.natAbs with
    | .infinite _ => .error .quotientTooLarge
    | x => .ok (.float x)

/-- A power of binary numbers. -/
def powFloat (x y : Binary64) : Except ExprError Value :=
  if x.isZero && y.isNegative && !y.isZero && y.isFinite then .error .zeroToNegative
  else
    let r := Binary64.pow x y
    match r with
    | .nan =>
      if x == .nan || y == .nan then .ok (.float r) else .error .notRepresentable
    | .infinite _ =>
      if x.isFinite && y.isFinite then .error .powerOutOfRange else .ok (.float r)
    | r => .ok (.float r)

/-- A power of integers; a negative exponent leaves the integers. -/
def powInt (a b : Int) : Except ExprError Value :=
  if 0 ≤ b then .ok (.int (Int.pow a b.toNat))
  else do
    let x ← floatOfInt a
    let y ← floatOfInt b
    powFloat x y

/-- A binary operator on integers. -/
def intOp (op : BinaryOp) (a b : Int) : Except ExprError Value :=
  match op with
  | .add => .ok (.int (a + b))
  | .sub => .ok (.int (a - b))
  | .mul => .ok (.int (a * b))
  | .div => divideInt a b
  | .floorDiv => if b == 0 then .error .floorByZero else .ok (.int (a.fdiv b))
  | .mod => if b == 0 then .error .moduloByZero else .ok (.int (a.fmod b))
  | .pow => powInt a b
  | .shiftLeft =>
    if b < 0 then .error .negativeShift
    else if a == 0 then .ok (.int 0)
    else if b ≥ 0x10000000000 then .error .hugeShift
    else .ok (.int (Bits.shiftLeft a b.toNat))
  | .shiftRight =>
    if b < 0 then .error .negativeShift
    else if b ≥ 0x10000000000 then .ok (.int (if a < 0 then -1 else 0))
    else .ok (.int (Bits.shiftRight a b.toNat))
  | .bitAnd => .ok (.int (Bits.and a b))
  | .bitOr => .ok (.int (Bits.or a b))

/-- Whether an operator works on bits, which binary numbers do not offer. -/
def BinaryOp.isBitwise : BinaryOp → Bool
  | .shiftLeft | .shiftRight | .bitAnd | .bitOr => true
  | _ => false

/-- A binary operator on binary numbers. -/
def floatOp (op : BinaryOp) (x y : Binary64) : Except ExprError Value :=
  match op with
  | .add => .ok (.float (x.add y))
  | .sub => .ok (.float (x.sub y))
  | .mul => .ok (.float (x.mul y))
  | .div => if y.isZero then .error .floatDivisionByZero else .ok (.float (x.div y))
  | .floorDiv => if y.isZero then .error .floatFloorByZero else .ok (.float (x.floorDiv y))
  | .mod => if y.isZero then .error .floatModuloByZero else .ok (.float (x.modulo y))
  | .pow => powFloat x y
  | op => .error (.badOperands op.sign "float" "float")

/-- Repeats a sequence. -/
def repeated {α : Type} (n : Int) (items : List α) : List α :=
  (List.replicate n.toNat items).flatten

/-- The kind of a sequence. -/
def sequence? : Value → Option Sequence
  | .text _ => some .text
  | .list _ => some .list
  | .tuple _ => some .tuple
  | _ => none

/-- Repeats a sequence value as often as another value says. -/
def repeatValue (v count : Value) : Except ExprError Value :=
  match count.int? with
  | none => .error (.badRepeat count.kindName)
  | some n =>
    if !isCount n then .error .hugeRepeat
    else
      match v with
      | .text t => .ok (.text (repeated n t))
      | .list items => .ok (.list (repeated n items))
      | .tuple items => .ok (.tuple (repeated n items))
      | v => .ok v

/-- A number cut to an integer by `f`. -/
def integral (f : Bool → Nat → Int → Int) : Binary64 → Except ExprError Value
  | .finite s m e => .ok (.int (f s m e))
  | .infinite _ => .error .infinityToInteger
  | .nan => .error .undefinedToInteger

/-- What a mark of a text stands for: `s` for the text of a value, `d` and `i` for the integer part of
a number. -/
def markedValue (mark : Char) (v : Value) : Except ExprError Value :=
  if mark == 's' then .ok v
  else if mark == 'd' || mark == 'i' then
    match v with
    | .float x => integral Binary64.truncate x
    | v =>
      match v.int? with
      | some n => .ok (.int n)
      | none => .error (.notReal mark v.kindName)
  else .error .badFormat

/-- A text with its marks filled in: a percent sign and a letter stand for the next value, two
percent signs for one. Returns the values that were not used. -/
def fillMarks : Text → List Value → Except ExprError (Text × List Value)
  | [], args => .ok ([], args)
  | '%' :: '%' :: rest, args => (fillMarks rest args).map fun (t, r) ↦ ('%' :: t, r)
  | ['%'], _ => .error .badFormat
  | '%' :: _ :: _, [] => .error .tooFewValues
  | '%' :: c :: rest, arg :: args => do
    let v ← markedValue c arg
    match v.display? with
    | some shown => (fillMarks rest args).map fun (t, r) ↦ (shown ++ t, r)
    | none => .error .tooManyDigits
  | c :: rest, args => (fillMarks rest args).map fun (t, r) ↦ (c :: t, r)

/-- Fills the marks of a text from a value, each item of a tuple being one. -/
def fillText (t : Text) (arg : Value) : Except ExprError Value := do
  let (args, mayRemain) := match arg with
    | .tuple items => (items, false)
    | .list items => ([.list items], true)
    | v => ([v], false)
  let (filled, left) ← fillMarks t args
  if left.isEmpty || mayRemain then .ok (.text filled) else .error .unconverted

/-- The result when no number operator applies: sequences are joined or repeated. -/
def sequenceOp (op : BinaryOp) (a b : Value) : Except ExprError Value :=
  let refused := ExprError.badOperands op.sign a.kindName b.kindName
  match op with
  | .add =>
    match a, b with
    | .text s, .text t => .ok (.text (s ++ t))
    | .list xs, .list ys => .ok (.list (xs ++ ys))
    | .tuple xs, .tuple ys => .ok (.tuple (xs ++ ys))
    | a, b =>
      match sequence? a with
      | some s => .error (.badConcat s b.kindName)
      | none => .error refused
  | .mul =>
    if (sequence? a).isSome then repeatValue a b
    else if (sequence? b).isSome then repeatValue b a
    else .error refused
  | .mod =>
    match a with
    | .text t => fillText t b
    | _ => .error refused
  | _ => .error refused

/-- A binary operator on any two values. Two truth values combined bit by bit stay truth values. -/
def binary (op : BinaryOp) (a b : Value) : Except ExprError Value :=
  match op, a, b with
  | .bitAnd, .bool p, .bool q => .ok (.bool (p && q))
  | .bitOr, .bool p, .bool q => .ok (.bool (p || q))
  | op, a, b =>
    match a.int?, b.int? with
    | some m, some n => intOp op m n
    | _, _ =>
      match float? a, float? b with
      | some x, some y =>
        if op.isBitwise then sequenceOp op a b
        else do
          let x ← x
          let y ← y
          floatOp op x y
      | _, _ => sequenceOp op a b

/-- An operator on one value. -/
def unary (op : UnaryOp) (v : Value) : Except ExprError Value :=
  match op, v with
  | .minus, .float x => .ok (.float x.neg)
  | .plus, .float x => .ok (.float x)
  | op, v =>
    match v.int? with
    | some n =>
      .ok (.int (match op with
        | .plus => n
        | .minus => -n
        | .invert => Bits.not n))
    | none => .error (.badUnary op.sign v.kindName)

/-- Whether an order satisfies a comparison. -/
def CompareOp.holds : CompareOp → Ordering → Bool
  | .lt, o => o == .lt
  | .le, o => o != .gt
  | .gt, o => o == .gt
  | .ge, o => o != .lt
  | _, _ => false

mutual

/-- Compares two values by order, if their kinds have one. -/
def ordered (op : CompareOp) : Value → Value → Except ExprError Bool
  | .text s, .text t => .ok (op.holds (compareOfLessAndEq s t))
  | .list xs, .list ys => orderedItems op xs ys
  | .tuple xs, .tuple ys => orderedItems op xs ys
  | a, b =>
    if a.isNumber && b.isNumber then
      .ok (((Value.numberOrder? a b).map op.holds).getD false)
    else .error (.notOrdered op.sign a.kindName b.kindName)

/-- Compares two sequences at their first difference, or by length if there is none. -/
def orderedItems (op : CompareOp) : List Value → List Value → Except ExprError Bool
  | [], [] => .ok (op.holds .eq)
  | [], _ :: _ => .ok (op.holds .lt)
  | _ :: _, [] => .ok (op.holds .gt)
  | x :: xs, y :: ys => if x.equal y then orderedItems op xs ys else ordered op x y

end

/-- Whether a value is an item of a sequence or a part of a text. -/
def isItem (v container : Value) : Except ExprError Bool :=
  match container with
  | .text t =>
    match v with
    | .text part => .ok (Text.has t part)
    | v => .error (.notPart v.kindName)
  | .list items => .ok (items.any v.equal)
  | .tuple items => .ok (items.any v.equal)
  | c => .error (.notContainer c.kindName)

mutual

/-- Whether a value has no list in it: every list is a new one. -/
def isConstant : Value → Bool
  | .list _ => false
  | .tuple items => areConstant items
  | _ => true

/-- Whether no item has a list in it. -/
def areConstant : List Value → Bool
  | [] => true
  | v :: rest => isConstant v && areConstant rest

end

/-- Whether two values are the same: constants are if they are equal and shown alike. -/
def isSame (a b : Value) : Bool :=
  isConstant a && a.kindName == b.kindName && a.equal b && a.shown? == b.shown?

/-- A comparison of two values. -/
def compareValues (op : CompareOp) (a b : Value) : Except ExprError Bool :=
  match op with
  | .eq => .ok (a.equal b)
  | .ne => .ok (!a.equal b)
  | .isIn => isItem a b
  | .notIn => (isItem a b).map (!·)
  | .same => .ok (isSame a b)
  | .notSame => .ok (!isSame a b)
  | op => ordered op a b

/-- The item of a list at a position, counted from the end if negative. -/
def itemAt? {α : Type} (items : List α) (i : Int) : Option α :=
  let i := if i < 0 then i + items.length else i
  if i < 0 then none else items[i.toNat]?

/-- The item of a sequence value at a position. -/
def index (v position : Value) : Except ExprError Value :=
  match sequence? v with
  | none =>
    match v with
    | .builtin f =>
      if f.isKind then .error (.kindNotSubscriptable f.name)
      else .error (.notSubscriptable v.kindName)
    | v => .error (.notSubscriptable v.kindName)
  | some s =>
    match position.int? with
    | none => .error (.badPosition s position.kindName)
    | some i =>
      if !isCount i then .error .hugePosition
      else
        let item := match v with
          | .text t => (itemAt? t i).map fun c ↦ Value.text [c]
          | .list items => itemAt? items i
          | .tuple items => itemAt? items i
          | _ => none
        match item with
        | some item => .ok item
        | none => .error (.outside s)

end Deskhand.Script
