import Deskhand.Failure
import Deskhand.Script.Value

/-!
# Why an expression has no value

One constructor for each cause, with the data its message names. Kinds of values are given by name.
-/

namespace Deskhand.Script

/-- Sequences that can be joined and indexed. -/
inductive Sequence where
  | text | list | tuple
  deriving DecidableEq

/-- The name of a sequence's kind. -/
def Sequence.kindName : Sequence → Text
  | .text => "str"
  | .list => "list"
  | .tuple => "tuple"

/-- The word a message about positions uses for a sequence. -/
def Sequence.noun : Sequence → Text
  | .text => "string"
  | .list => "list"
  | .tuple => "tuple"

/-- Why an expression has no value. -/
inductive ExprError where
  /-- The text is no expression. -/
  | malformed
  /-- The text holds the character with code zero. -/
  | zeroCharacter
  | unbound (name : Text)
  | badUnary (operator kind : Text)
  | badOperands (operator left right : Text)
  | badConcat (sequence : Sequence) (other : Text)
  | badRepeat (kind : Text)
  | notOrdered (operator left right : Text)
  | notIterable (kind : Text)
  | notContainer (kind : Text)
  | notPart (kind : Text)
  | notSubscriptable (kind : Text)
  | kindNotSubscriptable (name : Text)
  | badPosition (sequence : Sequence) (kind : Text)
  | outside (sequence : Sequence)
  | hugePosition
  | hugeRepeat
  | hugeShift
  | notCallable (kind : Text)
  | oneArgument (function : Builtin) (given : Nat)
  | noArgument (function : Builtin)
  | atMost (function : Text) (limit given : Nat)
  | atMostOne (given : Nat)
  | missingNumber
  | emptyChoice (function : Builtin)
  | noAbs (kind : Text)
  | noLength (kind : Text)
  | notIntegral (kind : Text)
  | noRound (kind : Text)
  | noInteger (kind : Text)
  | baseWithoutText
  | badBase
  | badTextArgument (argument kind : Text)
  | noDecoding
  | noBytes (kind : Text)
  | unconverted
  | badFormat
  | tooFewValues
  | notReal (mark : Char) (kind : Text)
  | divisionByZero
  | floorByZero
  | moduloByZero
  | floatDivisionByZero
  | floatFloorByZero
  | floatModuloByZero
  | zeroToNegative
  | negativeShift
  | tooLargeForFloat
  | quotientTooLarge
  | powerOutOfRange
  | roundedTooLarge
  | infinityToInteger
  | undefinedToInteger
  | notRepresentable
  | tooManyDigits
  | unreadable (error : Number.ReadError)

namespace ExprError

/-- The family of a failed expression. -/
def family : ExprError → Family
  | .malformed => .grammar
  | .unbound _ => .name
  | .zeroCharacter | .emptyChoice _ | .badBase | .negativeShift | .undefinedToInteger
  | .tooManyDigits | .unreadable _ | .badFormat | .notRepresentable => .value
  | .outside _ | .hugePosition => .index
  | .divisionByZero | .floorByZero | .moduloByZero | .floatDivisionByZero | .floatFloorByZero
  | .floatModuloByZero | .zeroToNegative => .zeroDivision
  | .hugeRepeat | .hugeShift | .tooLargeForFloat | .quotientTooLarge | .powerOutOfRange
  | .roundedTooLarge | .infinityToInteger => .overflow
  | _ => .type

/-- A name between single quotes. -/
def mark (t : Text) : Text := '\'' :: t ++ ['\'']

/-- The message for a failed expression. -/
def message : ExprError → Text
  | .malformed => "<expression syntax error>"
  | .zeroCharacter => "source code string cannot contain null bytes"
  | .unbound name => "name ".toList ++ mark name ++ " is not defined".toList
  | .badUnary op kind => "bad operand type for unary ".toList ++ op ++ ": ".toList ++ mark kind
  | .badOperands op left right =>
    "unsupported operand type(s) for ".toList ++ op ++ ": ".toList ++ mark left ++ " and ".toList
      ++ mark right
  | .badConcat s other =>
    "can only concatenate ".toList ++ s.kindName ++ " (not \"".toList ++ other ++ "\") to ".toList
      ++ s.kindName
  | .badRepeat kind => "can't multiply sequence by non-int of type ".toList ++ mark kind
  | .notOrdered op left right =>
    mark op ++ " not supported between instances of ".toList ++ mark left ++ " and ".toList
      ++ mark right
  | .notIterable kind => mark kind ++ " object is not iterable".toList
  | .notContainer kind => "argument of type ".toList ++ mark kind ++ " is not iterable".toList
  | .notPart kind => "'in <string>' requires string as left operand, not ".toList ++ kind
  | .notSubscriptable kind => mark kind ++ " object is not subscriptable".toList
  | .kindNotSubscriptable name => "type ".toList ++ mark name ++ " is not subscriptable".toList
  | .badPosition .text kind => "string indices must be integers, not ".toList ++ mark kind
  | .badPosition s kind =>
    s.noun ++ " indices must be integers or slices, not ".toList ++ kind
  | .outside s => s.noun ++ " index out of range".toList
  | .hugePosition | .hugeRepeat => "cannot fit 'int' into an index-sized integer"
  | .hugeShift => "too many digits in integer"
  | .notCallable kind => mark kind ++ " object is not callable".toList
  | .oneArgument f given =>
    f.name ++ "() takes exactly one argument (".toList ++ Text.ofNat given ++ " given)".toList
  | .noArgument f => f.name ++ " expected at least 1 argument, got 0".toList
  | .atMost f limit given =>
    f ++ "() takes at most ".toList ++ Text.ofNat limit ++ " arguments (".toList
      ++ Text.ofNat given ++ " given)".toList
  | .atMostOne given => "bool expected at most 1 argument, got ".toList ++ Text.ofNat given
  | .missingNumber => "round() missing required argument 'number' (pos 1)"
  | .emptyChoice f => f.name ++ "() arg is an empty sequence".toList
  | .noAbs kind => "bad operand type for abs(): ".toList ++ mark kind
  | .noLength kind => "object of type ".toList ++ mark kind ++ " has no len()".toList
  | .notIntegral kind => mark kind ++ " object cannot be interpreted as an integer".toList
  | .noRound kind => "type ".toList ++ kind ++ " doesn't define __round__ method".toList
  | .noInteger kind =>
    "int() argument must be a string, a bytes-like object or a real number, not ".toList
      ++ mark kind
  | .baseWithoutText => "int() can't convert non-string with explicit base"
  | .badBase => "int() base must be >= 2 and <= 36, or 0"
  | .badTextArgument argument kind =>
    "str() argument ".toList ++ mark argument ++ " must be str, not ".toList ++ kind
  | .noDecoding => "decoding str is not supported"
  | .noBytes kind =>
    "decoding to str: need a bytes-like object, ".toList ++ kind ++ " found".toList
  | .unconverted => "not all arguments converted during string formatting"
  | .badFormat => "incomplete format"
  | .tooFewValues => "not enough arguments for format string"
  | .notReal mark kind =>
    '%' :: mark :: " format: a real number is required, not ".toList ++ kind
  | .divisionByZero => "division by zero"
  | .floorByZero => "integer division or modulo by zero"
  | .moduloByZero => "integer modulo by zero"
  | .floatDivisionByZero => "float division by zero"
  | .floatFloorByZero => "float floor division by zero"
  | .floatModuloByZero => "float modulo"
  | .zeroToNegative => "0.0 cannot be raised to a negative power"
  | .negativeShift => "negative shift count"
  | .tooLargeForFloat => "int too large to convert to float"
  | .quotientTooLarge => "integer division result too large for a float"
  | .powerOutOfRange => "(34, 'Numerical result out of range')"
  | .roundedTooLarge => "rounded value too large to represent"
  | .infinityToInteger => "cannot convert float infinity to integer"
  | .undefinedToInteger => "cannot convert float NaN to integer"
  | .notRepresentable => "result is not a real number"
  | .tooManyDigits =>
    "Exceeds the limit (4300 digits) for integer string conversion; ".toList
      ++ "use sys.set_int_max_str_digits() to increase the limit".toList
  | .unreadable error => error.message

end ExprError

end Deskhand.Script
