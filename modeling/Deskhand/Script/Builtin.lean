import Deskhand.Script.Arith

/-!
# Functions of expressions

The eight functions an expression may call, with what each accepts and why it refuses the rest.
-/

namespace Deskhand.Script

/-- The items a value gives one by one. -/
def items (v : Value) : Except ExprError (List Value) :=
  match v with
  | .text t => .ok (t.map fun c ↦ .text [c])
  | .list xs => .ok xs
  | .tuple xs => .ok xs
  | v => .error (.notIterable v.kindName)

/-- The first of the items that no later one beats, `op` deciding whether one beats another. -/
def pick (op : CompareOp) (best : Value) : List Value → Except ExprError Value
  | [] => .ok best
  | v :: rest => do
    let beats ← ordered op v best
    pick op (if beats then v else best) rest

/-- The greatest or the smallest of several values, or of the items of one. -/
def choose (f : Builtin) (op : CompareOp) (args : List Value) : Except ExprError Value := do
  let candidates ← match args with
    | [] => .error (.noArgument f)
    | [v] => items v
    | vs => .ok vs
  match candidates with
  | [] => .error (.emptyChoice f)
  | v :: rest => pick op v rest

/-- The length of a sequence. -/
def length (v : Value) : Except ExprError Value :=
  match v with
  | .text t => .ok (.int t.length)
  | .list xs => .ok (.int xs.length)
  | .tuple xs => .ok (.int xs.length)
  | v => .error (.noLength v.kindName)

/-- The distance of a number from zero. -/
def absolute (v : Value) : Except ExprError Value :=
  match v with
  | .float x => .ok (.float x.abs)
  | v =>
    match v.int? with
    | some n => .ok (.int n.natAbs)
    | none => .error (.noAbs v.kindName)

/-- A failure to read a number, as a failed expression. -/
def ofReadError {α : Type} : Except Number.ReadError α → Except ExprError α
  | .ok a => .ok a
  | .error e => .error (.unreadable e)

/-- A value as an integer: numbers are cut, texts are read. -/
def toInteger (v : Value) : Except ExprError Value :=
  match v with
  | .text t => (ofReadError (Number.readInt t)).map .int
  | .float x => integral Binary64.truncate x
  | .object kind _ whole _ =>
    match whole with
    | some n => .ok (.int n)
    | none => .error (.noInteger kind)
  | v =>
    match v.int? with
    | some n => .ok (.int n)
    | none => .error (.noInteger v.kindName)

/-- A text read as an integer in a given base. -/
def toIntegerIn (v base : Value) : Except ExprError Value :=
  match base.int? with
  | none => .error (.notIntegral base.kindName)
  | some b =>
    if b != 0 && (b < 2 || 36 < b) then .error .badBase
    else
      match v with
      | .text t => (ofReadError (Number.readIntIn b.toNat t)).map .int
      | _ => .error .baseWithoutText

/-- The text of a value. -/
def toText (v : Value) : Except ExprError Value :=
  match v.display? with
  | some t => .ok (.text t)
  | none => .error .tooManyDigits

/-- Refuses to turn a value into text by an encoding, which only bytes have. -/
def decodeText (v : Value) : List (Text × Value) → Except ExprError Value
  | [] =>
    match v with
    | .text _ => .error .noDecoding
    | v => .error (.noBytes v.kindName)
  | (_, .text _) :: rest => decodeText v rest
  | (argument, other) :: _ => .error (.badTextArgument argument other.kindName)

/-- An integer rounded to a multiple of a power of ten, a tie going to the even multiple. -/
def roundToTen (n : Int) (power : Nat) : Int :=
  let unit := Nat.pow 10 power
  let q : Int := (Binary64.divRound n.natAbs unit * unit : Nat)
  if n < 0 then -q else q

/-- A binary number rounded to `places` decimals, a tie going to the even digit. -/
def roundPlaces (x : Binary64) (places : Int) : Except ExprError Value :=
  match x with
  | .finite s m e =>
    if places > 323 then .ok (.float x)
    else if places < -308 then .ok (.float (.zero s))
    else
      let (a, b) := Binary64.ratio m e
      let (a, b) := Binary64.scaleTen a b places
      match Number.ofDecimal s (Binary64.divRound a b) (-places) with
      | .infinite _ => .error .roundedTooLarge
      | y => .ok (.float y)
  | x => .ok (.float x)

/-- A number rounded to an integer. -/
def roundValue (v : Value) : Except ExprError Value :=
  match v with
  | .float x => integral Binary64.roundInt x
  | v =>
    match v.int? with
    | some n => .ok (.int n)
    | none => .error (.noRound v.kindName)

/-- A number rounded to a number of decimals. -/
def roundTo (v places : Value) : Except ExprError Value :=
  match v, places with
  | v, .none => roundValue v
  | v, places =>
    if !v.isNumber then .error (.noRound v.kindName)
    else
      match places.int? with
      | none => .error (.notIntegral places.kindName)
      | some p =>
        match v with
        | .float x => roundPlaces x p
        | v =>
          let n := v.int?.getD 0
          .ok (.int (if 0 ≤ p then n else roundToTen n p.natAbs))

/-- The value a function gives for its arguments. -/
def Builtin.apply (f : Builtin) (args : List Value) : Except ExprError Value :=
  match f, args with
  | .abs, [v] => absolute v
  | .len, [v] => length v
  | .max, args => choose .max .gt args
  | .min, args => choose .min .lt args
  | .int, [] => .ok (.int 0)
  | .int, [v] => toInteger v
  | .int, [v, base] => toIntegerIn v base
  | .int, args => .error (.atMost "int" 2 args.length)
  | .str, [] => .ok (.text [])
  | .str, [v] => toText v
  | .str, [v, encoding] => decodeText v [("encoding", encoding)]
  | .str, [v, encoding, errors] => decodeText v [("encoding", encoding), ("errors", errors)]
  | .str, args => .error (.atMost "str" 3 args.length)
  | .bool, [] => .ok (.bool false)
  | .bool, [v] => .ok (.bool v.truth)
  | .bool, args => .error (.atMostOne args.length)
  | .round, [] => .error .missingNumber
  | .round, [v] => roundValue v
  | .round, [v, places] => roundTo v places
  | .round, args => .error (.atMost "round" 2 args.length)
  | f, args => .error (.oneArgument f args.length)

/-- Calls a value. -/
def call (f : Value) (args : List Value) : Except ExprError Value :=
  match f with
  | .builtin f => f.apply args
  | v => .error (.notCallable v.kindName)

end Deskhand.Script
