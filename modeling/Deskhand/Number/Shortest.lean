import Deskhand.Number.Binary64
import Deskhand.Text.Basic

/-!
# Shortest decimal text

A finite number is written with the fewest decimal digits that still read back as that number, and
of those with the digits nearest to it. Numbers from `1e-4` up to below `1e16` are written
positionally with at least one decimal, the others with an exponent of at least two digits.
-/

namespace Deskhand.Binary64

/-- The digits of a number as an integer `digits` with `0.digits * 10 ^ point` its value. -/
structure Decimal where
  digits : Nat
  point : Int
  deriving DecidableEq

/-- The quotient `num / den` times `10 ^ power`, as a quotient. -/
def scaleTen (num den : Nat) : Int → Nat × Nat
  | .ofNat k => (num * Nat.pow 10 k, den)
  | .negSucc k => (num, den * Nat.pow 10 (k + 1))

/-- Number of decimal digits of a natural number; zero has none. -/
def digitCount (n : Nat) : Nat := if n == 0 then 0 else (Nat.toDigits 10 n).length

/-- The integer `k` with `10 ^ (k - 1) ≤ num / den < 10 ^ k`, for a quotient above zero. -/
def pointOf (num den : Nat) : Int :=
  if num < den then
    -- the quotient lies above `10 ^ (-zeros - 1)` and is at most `10 ^ -zeros`
    let zeros := digitCount (den / num) - 1
    if num * Nat.pow 10 zeros == den then 1 - (zeros : Int) else -(zeros : Int)
  else (digitCount (num / den) : Int)

/-- Whether `digits * 10 ^ power` reads as the positive number with this mantissa and exponent. -/
def readsBack (m : Nat) (e : Int) (digits : Nat) (power : Int) : Bool :=
  let (a, b) := scaleTen digits 1 power
  ofRatio false a b == .finite false m e

/-- The nearest decimal with `count` digits that reads back, if there is one. -/
def decimalOf (m : Nat) (e : Int) (count : Nat) : Option Decimal :=
  let (num, den) := ratio m e
  let point := pointOf num den
  let power := point - count
  let (a, b) := scaleTen num den (-power)
  let low := a / b
  let lowNear := 2 * (a % b) < b || (2 * (a % b) == b && low % 2 == 0)
  let lowFits := readsBack m e low power
  let highFits := readsBack m e (low + 1) power
  if lowFits && (lowNear || !highFits) then some ⟨low, point⟩
  else if highFits then
    if digitCount (low + 1) > count then some ⟨Nat.pow 10 (count - 1), point + 1⟩
    else some ⟨low + 1, point⟩
  else none

/-- The first decimal that reads back, from `count` digits on; seventeen always suffice. -/
def shortestFrom (m : Nat) (e : Int) (count : Nat) : Nat → Decimal
  | 0 => (decimalOf m e count).getD ⟨0, 0⟩
  | more + 1 => (decimalOf m e count).getD (shortestFrom m e (count + 1) more)

/-- The shortest decimal that reads back as a positive finite number. -/
def shortest (m : Nat) (e : Int) : Decimal := shortestFrom m e 1 16

/-- Text of a decimal exponent: a sign and at least two digits. -/
def exponentText (k : Int) : Text :=
  (if k < 0 then '-' else '+') :: Text.ofNatPadded 2 k.natAbs

/-- Text of digits with the decimal point after `point` of them. -/
def positional (digits : Text) (point : Int) : Text :=
  match point with
  | .ofNat 0 => "0.".toList ++ digits
  | .negSucc k => "0.".toList ++ List.replicate (k + 1) '0' ++ digits
  | .ofNat p =>
    if digits.length ≤ p then digits ++ List.replicate (p - digits.length) '0' ++ ".0".toList
    else digits.take p ++ '.' :: digits.drop p

/-- Text of a positive decimal. -/
def decimalText (d : Decimal) : Text :=
  let digits := Text.ofNat d.digits
  if -4 < d.point && d.point ≤ 16 then positional digits d.point
  else
    let rest := digits.drop 1
    digits.take 1 ++ (if rest.isEmpty then [] else '.' :: rest) ++ 'e' :: exponentText (d.point - 1)

/-- The shortest text that reads back as the number. -/
def text : Binary64 → Text
  | .nan => "nan"
  | .infinite s => if s then "-inf" else "inf"
  | .finite s m e =>
    let body := if m == 0 then "0.0".toList else decimalText (shortest m e)
    if s then '-' :: body else body

end Deskhand.Binary64
