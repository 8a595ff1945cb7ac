import Deskhand.Number.Reading

/-!
# Values of expressions

What a variable of a macro script holds: nothing, a truth value, an integer, a binary number, a
text, a list or a tuple, one of the functions an expression may call, or an object of another kind,
of which only as much is known as a script can tell. A truth value counts as the integer one or zero
wherever a number is wanted.
-/

namespace Deskhand.Script

/-- The functions an expression may call. -/
inductive Builtin where
  | abs | max | min | len | int | str | round | bool
  deriving DecidableEq

/-- The name of a function. -/
def Builtin.name : Builtin → Text
  | .abs => "abs"
  | .max => "max"
  | .min => "min"
  | .len => "len"
  | .int => "int"
  | .str => "str"
  | .round => "round"
  | .bool => "bool"

/-- Whether a function stands for a kind of values, which it makes. -/
def Builtin.isKind : Builtin → Bool
  | .int | .str | .bool => true
  | _ => false

/-- The function of a name. -/
def Builtin.ofName? (name : Text) : Option Builtin :=
  [.abs, .max, .min, .len, .int, .str, .round, .bool].find? fun b ↦ b.name == name

/-- The value of an expression. -/
inductive Value where
  | none
  | bool (b : Bool)
  | int (n : Int)
  | float (x : Binary64)
  | text (t : Text)
  | list (items : List Value)
  | tuple (items : List Value)
  | builtin (f : Builtin)
  /-- An object of another kind: the name of its kind, the text that shows it, unless an integer in it
  has too many digits, the integer it stands for, if it does, and whether it is equal to true. -/
  | object (kind : Text) (shown : Option Text) (whole : Option Int) (equalsTrue : Bool)
  deriving Inhabited

namespace Value

/-- The name of a value's kind. -/
def kindName : Value → Text
  | .none => "NoneType"
  | .bool _ => "bool"
  | .int _ => "int"
  | .float _ => "float"
  | .text _ => "str"
  | .list _ => "list"
  | .tuple _ => "tuple"
  | .builtin f => if f.isKind then "type" else "builtin_function_or_method"
  | .object kind .. => kind

/-- The integer a value stands for, truth values included. -/
def int? : Value → Option Int
  | .int n => some n
  | .bool b => some (if b then 1 else 0)
  | _ => Option.none

/-- Whether a value counts as true: zeros and empty things do not. -/
def truth : Value → Bool
  | .none => false
  | .bool b => b
  | .int n => n != 0
  | .float x => !x.isZero
  | .text t => !t.isEmpty
  | .list items => !items.isEmpty
  | .tuple items => !items.isEmpty
  | .builtin _ | .object .. => true

mutual

/-- The text that shows a value, unless an integer in it has too many digits. -/
def shown? : Value → Option Text
  | .none => some "None"
  | .bool b => some (if b then "True" else "False")
  | .int n => Number.intText? n
  | .float x => some x.text
  | .text t => some (Text.quoted t)
  | .list items => (shownItems? items).map fun ts ↦ '[' :: Text.join ", " ts ++ [']']
  | .tuple items =>
    (shownItems? items).map fun ts ↦
      '(' :: Text.join ", " ts ++ (if items.length == 1 then ",)" else ")" : String).toList
  | .builtin f =>
    some (if f.isKind then "<class '".toList ++ f.name ++ "'>".toList
      else "<built-in function ".toList ++ f.name ++ ">".toList)
  | .object _ shown .. => shown

/-- The texts that show the items of a list or tuple. -/
def shownItems? : List Value → Option (List Text)
  | [] => some []
  | v :: rest =>
    match shown? v, shownItems? rest with
    | some t, some ts => some (t :: ts)
    | _, _ => Option.none

end

/-- The text a value is replaced by in a line: a text is itself, any other value is shown. -/
def display? : Value → Option Text
  | .text t => some t
  | v => shown? v

/-- The order of two numbers, truth values included, unless one is no number or undefined. -/
def numberOrder? (a b : Value) : Option Ordering :=
  match a, b with
  | .float x, .float y => x.order? y
  | .float x, b => b.int?.bind x.orderInt?
  | a, .float y => (a.int?.bind y.orderInt?).map Ordering.swap
  | a, b =>
    match a.int?, b.int? with
    | some m, some n => some (compare m n)
    | _, _ => Option.none

/-- Whether a value is a number, truth values included. -/
def isNumber : Value → Bool
  | .bool _ | .int _ | .float _ => true
  | _ => false

mutual

/-- Whether two values are equal: numbers by size, everything else by kind and content. -/
def equal : Value → Value → Bool
  | .none, .none => true
  | .text s, .text t => s == t
  | .list xs, .list ys => equalItems xs ys
  | .tuple xs, .tuple ys => equalItems xs ys
  | .builtin f, .builtin g => f == g
  | .object _ _ _ equalsTrue, .bool true => equalsTrue
  | a, b => numberOrder? a b == some .eq

/-- Whether two sequences are equal item by item. -/
def equalItems : List Value → List Value → Bool
  | [], [] => true
  | x :: xs, y :: ys => equal x y && equalItems xs ys
  | _, _ => false

end

end Value

end Deskhand.Script
