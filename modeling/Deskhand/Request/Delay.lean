import Deskhand.Text.Blank
import Deskhand.Text.Digit
import Deskhand.Text.Scan
import Deskhand.Text.Word

/-!
# Delays in a request

Two ways to find the delay that a request asks for. One looks for a number somewhere between the word
"delay" and "ms", or before "millisecond", on one line; the other for a number right before "ms" or
right after "delay". Each takes the last number it finds.
-/

namespace Deskhand.Request

/-- A number at the start of a text that is followed by `mark` on the same line, and the number of
characters up to the end of the mark. -/
def numberBefore? (mark t : Text) : Option (Text × Nat) :=
  let (ds, rest) := Text.spanDigits t
  if ds.isEmpty then none
  else (Text.position? mark (Text.lineOf rest)).map fun i ↦ (ds, ds.length + i + mark.length)

/-- The word "delay", a number and "ms" in this order on one line. -/
def delayInMs? (t : Text) : Option (Text × Nat) :=
  match Text.after? "delay" t with
  | none => none
  | some rest =>
    let gap := (Text.lineOf rest).takeWhile (!Text.isDecimal ·)
    (numberBefore? "ms" (rest.drop gap.length)).map fun (ds, taken) ↦ (ds, 5 + gap.length + taken)

/-- The delays that a correction, in lower case, names. -/
def correctedDelays (t : Text) : List Text :=
  Text.scan (fun _ t ↦ (delayInMs? t).or (numberBefore? "millisecond" t)) t

/-- A number with "ms" right after it. -/
def msNumber? (t : Text) : Option (Text × Nat) :=
  let (ds, rest) := Text.spanDigits t
  let blanks := rest.takeWhile Text.isBlank
  if ds.isEmpty then none
  else if Text.startsWith (rest.drop blanks.length) "ms" then
    some (ds, ds.length + blanks.length + 2)
  else none

/-- A number right after the word "delay", which begins a word. -/
def delayNumber? (previous : Option Char) (t : Text) : Option (Text × Nat) :=
  match Text.after? "delay" t with
  | none => none
  | some rest =>
    let blanks := rest.takeWhile Text.isBlank
    let ds := (Text.spanDigits (rest.drop blanks.length)).1
    if (previous.map Text.isWord).getD false || blanks.isEmpty || ds.isEmpty then none
    else some (ds, 5 + blanks.length + ds.length)

/-- The delays that a request, in lower case, prefers. -/
def preferredDelays (t : Text) : List Text :=
  Text.scan (fun previous t ↦ (msNumber? t).or (delayNumber? previous t)) t

end Deskhand.Request
