/-!
# Binary floating-point numbers

Numbers with 53 significant binary digits and an eleven-bit exponent, held as sign, mantissa and
exponent. Every operation takes the exact result as a quotient of integers and rounds it once, to
the nearest number, a tie going to the even mantissa.
-/

namespace Deskhand

/-- A number `± mantissa * 2 ^ exponent`, an infinity, or the result of an undefined operation. The
exponent of a finite number is as small as its mantissa below `2 ^ 53` allows, and at least
`-1074`. -/
inductive Binary64 where
  | finite (negative : Bool) (mantissa : Nat) (exponent : Int)
  | infinite (negative : Bool)
  | nan
  deriving DecidableEq, Inhabited

namespace Binary64

/-- A zero of either sign. -/
def zero (negative : Bool) : Binary64 := .finite negative 0 (-1074)

/-- The quotient of `num` and `den`, rounded to an integer, a tie going to the even one. -/
def divRound (num den : Nat) : Nat :=
  let q := num / den
  let r := num % den
  if 2 * r > den || (2 * r == den && q % 2 == 1) then q + 1 else q

/-- The mantissa of `num / den` at a given exponent, rounded. -/
def mantissaAt (num den : Nat) (exponent : Int) : Nat :=
  match exponent with
  | .ofNat e => divRound num (den * Nat.pow 2 e)
  | .negSucc e => divRound (num * Nat.pow 2 (e + 1)) den

/-- Whether `num / den` is at least `2 ^ (52 + exponent)`. -/
def fillsMantissa (num den : Nat) (exponent : Int) : Bool :=
  match exponent with
  | .ofNat e => den * Nat.pow 2 (52 + e) ≤ num
  | .negSucc e => den * Nat.pow 2 52 ≤ num * Nat.pow 2 (e + 1)

/-- The number nearest to `± num / den`, where `den` is not zero. -/
def ofRatio (negative : Bool) (num den : Nat) : Binary64 :=
  if num == 0 then zero negative
  else
    let guess : Int := (num.log2 : Int) - den.log2 - 52
    let fitted := if fillsMantissa num den guess then guess else guess - 1
    let exponent := max fitted (-1074)
    let m := mantissaAt num den exponent
    let (m, exponent) := if m == Nat.pow 2 53 then (Nat.pow 2 52, exponent + 1) else (m, exponent)
    if exponent > 971 then .infinite negative else .finite negative m exponent

/-- The number nearest to an integer. -/
def ofInt (n : Int) : Binary64 := ofRatio (n < 0) n.natAbs 1

/-- The sign, set also for a negative zero. -/
def isNegative : Binary64 → Bool
  | .finite s _ _ => s
  | .infinite s => s
  | .nan => false

/-- Zero of either sign. -/
def isZero : Binary64 → Bool
  | .finite _ m _ => m == 0
  | _ => false

/-- Neither an infinity nor undefined. -/
def isFinite : Binary64 → Bool
  | .finite .. => true
  | _ => false

/-- The opposite number. -/
def neg : Binary64 → Binary64
  | .finite s m e => .finite (!s) m e
  | .infinite s => .infinite (!s)
  | .nan => .nan

/-- The distance from zero. -/
def abs : Binary64 → Binary64
  | .finite _ m e => .finite false m e
  | .infinite _ => .infinite false
  | .nan => .nan

/-- Numerator and denominator of the absolute value of a finite number. -/
def ratio (m : Nat) : Int → Nat × Nat
  | .ofNat e => (m * Nat.pow 2 e, 1)
  | .negSucc e => (m, Nat.pow 2 (e + 1))

/-- Numerator, with the sign, and denominator of a finite number. -/
def signedRatio (s : Bool) (m : Nat) (e : Int) : Int × Nat :=
  let (n, d) := ratio m e
  (if s then -(n : Int) else n, d)

/-- The sum. A sum of opposite numbers is the positive zero. -/
def add : Binary64 → Binary64 → Binary64
  | .nan, _ => .nan
  | _, .nan => .nan
  | .infinite s, .infinite t => if s == t then .infinite s else .nan
  | .infinite s, _ => .infinite s
  | _, .infinite t => .infinite t
  | .finite s m e, .finite t n f =>
    let (a, b) := signedRatio s m e
    let (c, d) := signedRatio t n f
    let num := a * d + c * b
    if num == 0 then zero (s && t) else ofRatio (num < 0) num.natAbs (b * d)

/-- The difference. -/
def sub (x y : Binary64) : Binary64 := add x (neg y)

/-- The product. -/
def mul : Binary64 → Binary64 → Binary64
  | .nan, _ => .nan
  | _, .nan => .nan
  | .infinite s, y => if y.isZero then .nan else .infinite (s != y.isNegative)
  | x, .infinite t => if x.isZero then .nan else .infinite (x.isNegative != t)
  | .finite s m e, .finite t n f =>
    let (a, b) := ratio m e
    let (c, d) := ratio n f
    ofRatio (s != t) (a * c) (b * d)

/-- The quotient; a zero divisor is for the caller to refuse. -/
def div : Binary64 → Binary64 → Binary64
  | .nan, _ => .nan
  | _, .nan => .nan
  | .infinite _, .infinite _ => .nan
  | .infinite s, y => .infinite (s != y.isNegative)
  | x, .infinite t => zero (x.isNegative != t)
  | .finite s m e, .finite t n f =>
    if n == 0 then if m == 0 then .nan else .infinite (s != t)
    else
      let (a, b) := ratio m e
      let (c, d) := ratio n f
      ofRatio (s != t) (a * d) (b * c)

/-- The exact remainder of a division rounded toward zero, with the sign of the dividend. -/
def remainder : Binary64 → Binary64 → Binary64
  | .nan, _ => .nan
  | _, .nan => .nan
  | .infinite _, _ => .nan
  | x, .infinite _ => x
  | .finite s m e, .finite _ n f =>
    if n == 0 then .nan
    else
      let (a, b) := ratio m e
      let (c, d) := ratio n f
      ofRatio s (a * d % (c * b)) (b * d)

/-- The greatest integer that is not above a finite number. -/
def floorInt (s : Bool) (m : Nat) (e : Int) : Int :=
  let (a, b) := signedRatio s m e
  a.fdiv b

/-- The greatest integral number not above; infinities stay. -/
def floor : Binary64 → Binary64
  | .finite s m e =>
    let n := floorInt s m e
    if n == 0 then zero s else ofInt n
  | x => x

/-- The remainder that has the sign of the divisor, which is not zero. -/
def modulo (x y : Binary64) : Binary64 :=
  let r := remainder x y
  if r.isZero then zero y.isNegative
  else if r == .nan then .nan
  else if y.isNegative != r.isNegative then add r y else r

/-- Greater than one half. -/
def aboveHalf : Binary64 → Bool
  | .finite false m e => let (a, b) := ratio m e; 2 * a > b
  | .infinite false => true
  | _ => false

/-- The quotient rounded down, for a divisor that is not zero. -/
def floorDiv (x y : Binary64) : Binary64 :=
  let r := remainder x y
  let q := div (sub x r) y
  let q := if !r.isZero && r != .nan && y.isNegative != r.isNegative then
    sub q (ofInt 1) else q
  if q.isZero then zero (div x y).isNegative
  else
    let low := floor q
    if aboveHalf (sub q low) then add low (ofInt 1) else low

/-- The integer part of a finite number. -/
def truncate (s : Bool) (m : Nat) (e : Int) : Int :=
  let (a, b) := signedRatio s m e
  a.tdiv b

/-- A finite number rounded to an integer, a tie going to the even one. -/
def roundInt (s : Bool) (m : Nat) (e : Int) : Int :=
  let (a, b) := ratio m e
  let n : Int := divRound a b
  if s then -n else n

/-- Order of two quotients with positive denominators. -/
def compareRatio (a : Int) (b : Nat) (c : Int) (d : Nat) : Ordering :=
  compare (a * d) (c * b)

/-- The order of two numbers, unless one of them is undefined. -/
def order? : Binary64 → Binary64 → Option Ordering
  | .nan, _ => none
  | _, .nan => none
  | .infinite s, .infinite t => some (compare (if s then 0 else 1 : Nat) (if t then 0 else 1))
  | .infinite s, _ => some (if s then .lt else .gt)
  | _, .infinite t => some (if t then .gt else .lt)
  | .finite s m e, .finite t n f =>
    let (a, b) := signedRatio s m e
    let (c, d) := signedRatio t n f
    some (compareRatio a b c d)

/-- The order of a number and an integer of any size, unless the number is undefined. -/
def orderInt? : Binary64 → Int → Option Ordering
  | .nan, _ => none
  | .infinite s, _ => some (if s then .lt else .gt)
  | .finite s m e, n =>
    let (a, b) := signedRatio s m e
    some (compareRatio a b n 1)

/-- The sixty-four bits of a number. -/
def toBits : Binary64 → UInt64
  | .nan => 0x7ff8000000000000
  | .infinite s => if s then 0xfff0000000000000 else 0x7ff0000000000000
  | .finite s m e =>
    let sign : UInt64 := if s then 0x8000000000000000 else 0
    if m < Nat.pow 2 52 then sign ||| m.toUInt64
    else sign ||| ((e + 1075).toNat.toUInt64 <<< 52) ||| (m - Nat.pow 2 52).toUInt64

/-- The number with the given sixty-four bits. -/
def ofBits (bits : UInt64) : Binary64 :=
  let s := bits >>> 63 == 1
  let e := ((bits >>> 52) &&& 0x7ff).toNat
  let m := (bits &&& 0xfffffffffffff).toNat
  if e == 0x7ff then if m == 0 then .infinite s else .nan
  else if e == 0 then .finite s m (-1074)
  else .finite s (m + Nat.pow 2 52) ((e : Int) - 1075)

/-- The power of two numbers, as the machine computes it. -/
def pow (x y : Binary64) : Binary64 :=
  ofBits (Float.pow (Float.ofBits x.toBits) (Float.ofBits y.toBits)).toBits

/-- The opposite of the opposite is the number itself. -/
@[simp]
theorem neg_neg (x : Binary64) : neg (neg x) = x := by
  cases x <;> simp [neg]

end Binary64

end Deskhand
