import Deskhand.Hid.Fault

/-!
# Media reports

What a media keypad tells its host: the one sixteen-bit code that is down, or zero for none.
-/

namespace Deskhand.Hid

/-- A media report. -/
structure MediaReport where
  code : UInt16
  deriving DecidableEq, Inhabited

namespace MediaReport

/-- No code is down. -/
def empty : MediaReport := ⟨0⟩

/-- The two bytes that are sent, the lower one first. -/
def bytes (r : MediaReport) : List UInt8 := [r.code.toUInt8, (r.code >>> 8).toUInt8]

/-- Presses a code in place of the one before. A code that does not fit leaves none down. -/
def press (_ : MediaReport) (code : Int) : MediaReport × Option Fault :=
  if 0 ≤ code && code < 65536 then (⟨code.toNat.toUInt16⟩, none)
  else if -0x8000000000000000 ≤ code && code < 0x8000000000000000 then (empty, some .codeNotWord)
  else (empty, some .codeTooLarge)

/-- Releases the code that is down. -/
def release (_ : MediaReport) : MediaReport := empty

end MediaReport

end Deskhand.Hid
