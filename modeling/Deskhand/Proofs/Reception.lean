import Deskhand.Proofs.Faults
import Deskhand.Proofs.Margin
import Mathlib.Data.List.Basic

/-!
# Receiving is a fold over complete lines

What arrives is cut at the line feeds. Every part that a line feed ends is handled as one message,
from the state that the message before it left; the part after the last line feed is not handled.
A wait without a byte makes a pause at its place and does nothing else. Whatever a message raises is
printed, unless an expression in it asks the program to exit.
-/

namespace Deskhand.Serial

open Script (Evaluator FailsWith Machine Macro)

/-- What arrives after the last line feed. -/
def remainder (input : List (Option UInt8)) : List (Option UInt8) :=
  ((input.splitOn (some 10)).getLast?).getD []

/-- The messages in a run of bytes: what a line feed ends. -/
def messages (bytes : List UInt8) : List (List UInt8) := (bytes.splitOn 10).dropLast

/-! ### Cutting at the line feeds -/

section Handling

variable [Evaluator]

end Handling

end Deskhand.Serial
