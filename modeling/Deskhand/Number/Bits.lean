/-!
# Bits of integers

Integers of any size as endless rows of bits, a negative one with ones on its left. A negative
integer `-n - 1` has the opposite bits of `n`, which is how every operation below treats it.
-/

namespace Deskhand.Bits

/-- The bits of `m` that `n` does not have. -/
def without (m n : Nat) : Nat := m ^^^ (m &&& n)

/-- All bits turned over. -/
def not (n : Int) : Int := -n - 1

/-- The bits two integers share. -/
def and : Int → Int → Int
  | .ofNat m, .ofNat n => .ofNat (m &&& n)
  | .ofNat m, .negSucc n => .ofNat (without m n)
  | .negSucc m, .ofNat n => .ofNat (without n m)
  | .negSucc m, .negSucc n => .negSucc (m ||| n)

/-- The bits at least one of two integers has. -/
def or : Int → Int → Int
  | .ofNat m, .ofNat n => .ofNat (m ||| n)
  | .ofNat m, .negSucc n => .negSucc (without n m)
  | .negSucc m, .ofNat n => .negSucc (without m n)
  | .negSucc m, .negSucc n => .negSucc (m &&& n)

/-- The bits moved up by `k` places. -/
def shiftLeft (n : Int) (k : Nat) : Int := n * Int.pow 2 k

/-- The bits moved down by `k` places, those below the first dropped. -/
def shiftRight (n : Int) (k : Nat) : Int := n.fdiv (Int.pow 2 k)

/-- Turning all bits over twice changes nothing. -/
@[simp]
theorem not_not (n : Int) : not (not n) = n := by
  unfold not
  omega

end Deskhand.Bits
