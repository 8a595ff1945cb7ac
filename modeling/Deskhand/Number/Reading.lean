import Deskhand.Number.Shortest
import Deskhand.Text.Blank
import Deskhand.Text.Digit
import Deskhand.Text.Quoted

/-!
# Reading numbers

How a text is read as an integer or a decimal number: white space around it does not count, unless it
is an information separator, a sign may stand in front, an underscore may stand between two digits,
and digits of any script count.
-/

namespace Deskhand.Number

/-- The most digits an integer may have when it is read or written in base ten. -/
def digitLimit : Nat := 4300

/-- Why a text is not read as a number. -/
inductive ReadError where
  | notInteger (base : Nat) (shown : Text)
  | tooManyDigits (count : Nat)
  | notDecimal (shown : Text)
  deriving DecidableEq

/-- The message for a number that was not read. -/
def ReadError.message : ReadError → Text
  | .notInteger base shown =>
    "invalid literal for int() with base ".toList ++ Text.ofNat base ++ ": ".toList
      ++ (Text.quoted shown).take 200
  | .tooManyDigits count =>
    "Exceeds the limit (4300 digits) for integer string conversion: value has ".toList
      ++ Text.ofNat count
      ++ " digits; use sys.set_int_max_str_digits() to increase the limit".toList
  | .notDecimal shown => "could not convert string to float: ".toList ++ Text.quoted shown

/-- The value of a letter or digit in bases up to thirty-six. -/
def digitIn (c : Char) : Option Nat :=
  match Text.digitValue? c with
  | some d => some d
  | none =>
    if 'a' ≤ c && c ≤ 'z' then some (c.toNat - 87)
    else if 'A' ≤ c && c ≤ 'Z' then some (c.toNat - 55)
    else none

/-- Digits of a base with single underscores between them: how many there are and the number they
write. -/
def digitsIn (base : Nat) (afterDigit : Bool) (count acc : Nat) : Text → Option (Nat × Nat)
  | [] => if afterDigit then some (count, acc) else none
  | c :: rest =>
    if c == '_' then if afterDigit then digitsIn base false count acc rest else none
    else
      match digitIn c with
      | some d =>
        if d < base then digitsIn base true (count + 1) (acc * base + d) rest else none
      | none => none

/-- A sign in front of a text, and the rest. -/
def takeSign : Text → Bool × Text
  | '-' :: rest => (true, rest)
  | '+' :: rest => (false, rest)
  | t => (false, t)

/-- The integer of a sign and a size. -/
def signed (negative : Bool) (n : Nat) : Int := if negative then -(n : Int) else n

/-- White space that may stand around a number; the information separators may not. -/
def mayPad (c : Char) : Bool := Text.isBlank c && !(28 ≤ c.toNat && c.toNat ≤ 31)

/-- A text without the white space that may stand around a number. -/
def unpadded (t : Text) : Text := ((t.dropWhile mayPad).reverse.dropWhile mayPad).reverse

/-- Reads an integer in base ten. -/
def readInt (t : Text) : Except ReadError Int :=
  let (negative, body) := takeSign (unpadded t)
  match digitsIn 10 false 0 0 body with
  | none => .error (.notInteger 10 t)
  | some (count, n) =>
    if count > digitLimit then .error (.tooManyDigits count) else .ok (signed negative n)

/-- The base that a leading `0x`, `0o` or `0b` names. -/
def namedBase : Text → Option (Nat × Text)
  | '0' :: c :: rest =>
    if c == 'x' || c == 'X' then some (16, rest)
    else if c == 'o' || c == 'O' then some (8, rest)
    else if c == 'b' || c == 'B' then some (2, rest)
    else none
  | _ => none

/-- Reads an integer in a base from two to thirty-six, or in the base its first characters name if
`base` is zero. -/
def readIntIn (base : Nat) (t : Text) : Except ReadError Int :=
  let (negative, body) := takeSign (unpadded t)
  let dropMark : Text → Text := fun r ↦
    match r with
    | '_' :: r' => r'
    | r => r
  let parsed :=
    match namedBase body with
    | some (named, rest) =>
      if base == 0 || base == named then (digitsIn named false 0 0 (dropMark rest)).map (named, ·)
      else (digitsIn base false 0 0 body).map (base, ·)
    | none =>
      if base == 0 then
        -- without a named base, zeros may only stand in front of zeros
        match digitsIn 10 false 0 0 body with
        | some (count, n) =>
          if body.head? == some '0' && n != 0 then none else some (10, count, n)
        | none => none
      else (digitsIn base false 0 0 body).map (base, ·)
  match parsed with
  | none => .error (.notInteger base t)
  | some (used, count, n) =>
    if used &&& (used - 1) != 0 && count > digitLimit then .error (.tooManyDigits count)
    else .ok (signed negative n)

/-- The number nearest to `digits * 10 ^ power`. -/
def ofDecimal (negative : Bool) (digits : Nat) (power : Int) : Binary64 :=
  if digits == 0 then .zero negative
  else
    let size := (Binary64.digitCount digits : Int) + power
    if size > 400 then .infinite negative
    else if size < -400 then .zero negative
    else
      let (a, b) := Binary64.scaleTen digits 1 power
      .ofRatio negative a b

/-- A run of digits with single underscores between them, as the digits alone; the rest starts with
neither. -/
def spanDigits (afterDigit : Bool) : Text → Option (Text × Text)
  | [] => some ([], [])
  | c :: rest =>
    match Text.digitValue? c with
    | some d => (spanDigits true rest).map fun (ds, r) ↦ (Char.ofNat (48 + d) :: ds, r)
    | none =>
      if c == '_' && afterDigit then
        match rest with
        | d :: _ => if Text.isDecimal d then spanDigits false rest else none
        | [] => none
      else some ([], c :: rest)

/-- The exponent after the letter `e`, or zero if there is none. -/
def readExponent : Text → Option Int
  | [] => some 0
  | c :: rest =>
    if c == 'e' || c == 'E' then
      let (negative, body) := takeSign rest
      match spanDigits false body with
      | some (ds, []) =>
        if ds.isEmpty then none else some (signed negative (Text.digitsValue 0 ds))
      | _ => none
    else none

/-- Reads digits, a point, digits and an exponent, where one of the digit runs may be empty. -/
def readUnsigned (negative : Bool) (t : Text) : Option Binary64 :=
  match spanDigits false t with
  | none => none
  | some (whole, rest) =>
    let fraction :=
      match rest with
      | '.' :: r => spanDigits false r
      | r => some ([], r)
    match fraction with
    | none => none
    | some (part, rest) =>
      if whole.isEmpty && part.isEmpty then none
      else
        (readExponent rest).map fun e ↦
          ofDecimal negative (Text.digitsValue 0 (whole ++ part)) (e - part.length)

/-- Reads a decimal number, an infinity or `nan`. -/
def readDecimal (t : Text) : Except ReadError Binary64 :=
  let (negative, body) := takeSign (unpadded t)
  let word := body.map Char.toLower
  if word == "inf".toList || word == "infinity".toList then .ok (.infinite negative)
  else if word == "nan".toList then .ok .nan
  else
    match readUnsigned negative body with
    | some x => .ok x
    | none => .error (.notDecimal t)

/-- The decimal text of an integer, unless it has too many digits. -/
def intText? (n : Int) : Option Text :=
  let t := Text.ofInt n
  if n.natAbs < Nat.pow 10 digitLimit then some t else none

end Deskhand.Number
