import Deskhand.Hid.Fault
import Deskhand.Number.Bits

/-!
# Pointer reports

What a pointing device tells its host: the buttons that are down, and how far it moved along two
axes and turned its wheel since the last report. One report covers at most 127 steps each way, so a
longer movement takes several.
-/

namespace Deskhand.Hid

/-- A pointer report, each movement as a byte in two's complement. -/
structure PointerReport where
  buttons : UInt8
  x : UInt8
  y : UInt8
  wheel : UInt8
  deriving DecidableEq, Inhabited

namespace PointerReport

/-- No button down and no movement. -/
def empty : PointerReport := ⟨0, 0, 0, 0⟩

/-- The four bytes that are sent. -/
def bytes (r : PointerReport) : List UInt8 := [r.buttons, r.x, r.y, r.wheel]

/-- The largest part of a distance one report covers (`_limit`). -/
def limit (distance : Int) : Int := min 127 (max (-127) distance)

/-- A distance from -128 to 127 as a byte. -/
def byteOf (distance : Int) : UInt8 := (distance.emod 256).toNat.toUInt8

/-- The distance a byte stands for. -/
def distanceOf (b : UInt8) : Int := if b < 128 then b.toNat else (b.toNat : Int) - 256

/-- A report of a set of buttons, without movement. -/
def ofButtons (buttons : Int) : Except Fault PointerReport :=
  if 0 ≤ buttons && buttons < 256 then
    .ok { buttons := buttons.toNat.toUInt8, x := 0, y := 0, wheel := 0 }
  else .error .buttonsNotByte

/-- Presses a set of buttons. -/
def press (r : PointerReport) (buttons : Int) : Except Fault PointerReport :=
  ofButtons (Bits.or r.buttons.toNat buttons)

/-- Releases a set of buttons. -/
def release (r : PointerReport) (buttons : Int) : Except Fault PointerReport :=
  ofButtons (Bits.and r.buttons.toNat (Bits.not buttons))

/-- Releases all buttons. -/
def releaseAll (_ : PointerReport) : PointerReport := empty

/-- The report of a partial movement. -/
def moved (r : PointerReport) (x y wheel : Int) : PointerReport :=
  { r with x := byteOf x, y := byteOf y, wheel := byteOf wheel }

/-- The reports of a whole movement, in order. -/
def moves (r : PointerReport) (x y wheel : Int) : List PointerReport :=
  if x = 0 ∧ y = 0 ∧ wheel = 0 then []
  else
    r.moved (limit x) (limit y) (limit wheel)
      :: r.moves (x - limit x) (y - limit y) (wheel - limit wheel)
termination_by x.natAbs + y.natAbs + wheel.natAbs
decreasing_by
  simp only [limit]
  omega

/-- What was moved before does not change the reports of a movement. -/
@[simp]
theorem moves_moved (r : PointerReport) (a b c x y wheel : Int) :
    (r.moved a b c).moves x y wheel = r.moves x y wheel := by
  fun_induction moves r x y wheel with
  | case1 x y wheel h => rw [moves]; simp [h]
  | case2 x y wheel h ih => rw [moves]; simp only [h, if_false, ih]; rfl

/-- A movement of no distance sends nothing. -/
@[simp]
theorem moves_zero (r : PointerReport) : r.moves 0 0 0 = [] := by
  simp [moves]

end PointerReport

end Deskhand.Hid
