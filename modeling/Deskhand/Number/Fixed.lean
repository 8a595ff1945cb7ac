import Deskhand.Number.Shortest

/-!
# Rounding to decimals

Numbers rounded to a number of decimals or of significant digits. The exact value is rounded, and a
tie goes to the even digit.
-/

namespace Deskhand.Binary64

/-- The digits of a whole number of `places`-th parts, with the decimal point set. -/
def pointed (places n : Nat) : Text :=
  let digits := Text.ofNatPadded (places + 1) n
  let whole := digits.take (digits.length - places)
  if places == 0 then whole else whole ++ '.' :: digits.drop (digits.length - places)

/-- The text of a number with a fixed number of decimals. -/
def fixedText (places : Nat) : Binary64 → Text
  | .nan => "nan"
  | .infinite s => if s then "-inf" else "inf"
  | .finite s m e =>
    let (a, b) := ratio m e
    (if s then ['-'] else []) ++ pointed places (divRound (a * Nat.pow 10 places) b)

/-- A number rounded to a number of decimals. -/
def roundTo (places : Nat) : Binary64 → Binary64
  | .finite s m e =>
    let (a, b) := ratio m e
    ofRatio s (divRound (a * Nat.pow 10 places) b) (Nat.pow 10 places)
  | x => x

/-- A number rounded to a number of significant digits. A zero loses its sign. -/
def roundDigits (count : Nat) : Binary64 → Binary64
  | .finite s m e =>
    if m == 0 then zero false
    else
      let (a, b) := ratio m e
      let power := pointOf a b - count
      let (c, d) := scaleTen a b (-power)
      let (n, q) := scaleTen (divRound c d) 1 power
      ofRatio s n q
  | x => x

end Deskhand.Binary64
