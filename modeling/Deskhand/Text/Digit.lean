import Deskhand.Text.Basic

/-!
# Decimal digits

Every script of Unicode 14 that has decimal digits has ten of them in a row, so a table of zeros
gives each digit its value.
-/

namespace Deskhand.Text

/-- The code point of the digit zero of each script, in order. -/
def digitZeros : Array Nat := #[
  48, 1632, 1776, 1984, 2406, 2534, 2662, 2790, 2918, 3046, 3174, 3302, 3430, 3558, 3664, 3792,
  3872, 4160, 4240, 6112, 6160, 6470, 6608, 6784, 6800, 6992, 7088, 7232, 7248, 42528, 43216,
  43264, 43472, 43504, 43600, 44016, 65296, 66720, 68912, 69734, 69872, 69942, 70096, 70384,
  70736, 70864, 71248, 71360, 71472, 71904, 72016, 72784, 73040, 73120, 92768, 92864, 93008,
  120782, 120792, 120802, 120812, 120822, 123200, 123632, 125264, 130032]

/-- The value of a decimal digit of any script. -/
def digitValue? (c : Char) : Option Nat :=
  if c.toNat < 128 then if c.isDigit then some (c.toNat - 48) else none
  else (digitZeros.find? fun z ↦ z ≤ c.toNat && c.toNat ≤ z + 9).map (c.toNat - ·)

/-- Decimal digits of any script. -/
def isDecimal (c : Char) : Bool := (digitValue? c).isSome

/-- The longest run of decimal digits at the start of a text, and what follows it. -/
def spanDigits (t : Text) : Text × Text := t.span isDecimal

/-- The number a text of decimal digits writes, `acc` standing for the digits before it. -/
def digitsValue (acc : Nat) : Text → Nat
  | [] => acc
  | c :: rest => digitsValue (acc * 10 + (digitValue? c).getD 0) rest

end Deskhand.Text
