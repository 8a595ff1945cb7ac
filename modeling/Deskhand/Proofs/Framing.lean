import Deskhand.Proofs.Editing
import Deskhand.Proofs.Faults
import Deskhand.Proofs.JsonText
import Deskhand.Proofs.Margin

/-!
# A script in its frame

A script is sent as the only field of a JSON object, on a line of its own. The frame is printable
ASCII, so the receiver reads it back byte for byte, finds the field and runs its text between its
own lines. One step of the receiver lies outside the frame: a backslash followed by `n` in the
script becomes a line end.
-/

namespace Deskhand

namespace Text

variable {t : Text}

/-! ### Printable texts as bytes -/

end Text

namespace Serial

open Script (Machine Macro)

/-- The text that carries a script. -/
def frameText (script : Text) : Text := Json.write (.object [(scriptField, .text script)])

/-- The bytes that carry a script: its text and a line feed, without waits. -/
def frame (script : Text) : List (Option UInt8) := (Text.toUtf8 (frameText script) ++ [10]).map some

/-- The lines before a script. -/
def opening (text : Text) : Array Event :=
  #[.print ("Received: ".toList ++ text), .print "Executing script..."]

section

variable {script : Text} {m m' : Machine} {room draws : Nat} (text : Text) (earlier : Array Event)

end

/-! ### A script survives its frame -/

end Serial

end Deskhand
