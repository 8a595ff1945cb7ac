import Deskhand.Json.Reader
import Deskhand.Script.Run
import Deskhand.Text.Utf8

/-!
# The serial receiver

Bytes arrive one by one, with pauses between them when none is there in time. A line feed ends a
message. A message that is a JSON object with a script runs it; whatever goes wrong with one message
is printed, and the next one starts from the state that this one left. Only an expression that asks
the program to exit ends the loop.
-/

namespace Deskhand.Serial

open Deskhand.Script (Evaluator Machine Macro)

/-- Why a message fails. -/
inductive Fault where
  | notText (error : Text.Utf8Error)
  | notJson (error : Json.ReadError)
  /-- The script is a value of a kind that is no text. -/
  | notScript (kind : Text)
  | script (fault : Script.Fault)

/-- The message for a fault. -/
def Fault.message : Fault → Text
  | .notText error => error.message
  | .notJson error => error.message
  | .notScript kind => Text.between "'" kind ++ " object has no attribute 'replace'".toList
  | .script fault => fault.message

/-- What asks the program to exit, if a fault does. -/
def Fault.exit? : Fault → Option Script.Fault
  | .script fault => if fault.exits then some fault else none
  | _ => none

/-- Work on a message. -/
abbrev Work (α : Type) := EStateM (Halt Fault) Machine α

namespace Work

variable {α : Type}

/-- Fails. -/
def fail (fault : Fault) : Work α := throw (.failed fault)

/-- Work of a macro run. -/
def ofMacro (run : Macro α) : Work α := fun m ↦
  match run m with
  | .ok a m => .ok a m
  | .error halt m => .error (halt.map .script) m

/-- Prints a line. -/
def print (line : Text) : Work Unit := ofMacro (Macro.print line)

end Work

/-- The field that holds the script. -/
def scriptField : Text := "ducky_script"

/-- Whether a message looks like one that carries a script. -/
def carriesScript (t : Text) : Bool := t.head? == some '\x7b' && Text.has t scriptField

/-- Runs the script of a message; a backslash followed by `n` stands for a line end in it. -/
def runScript [Evaluator] (message : Json) : Work Unit := do
  match (message.field? scriptField).getD (.text []) with
  | .text [] => Work.print "Empty script received."
  | .text script => do
    Work.print "Executing script..."
    Work.ofMacro (Macro.script (Text.replaceAll script "\\n" "\n"))
    Work.print "Script execution completed."
  | v =>
    if v.truth then do
      Work.print "Executing script..."
      Work.fail (.notScript v.kindName)
    else Work.print "Empty script received."

/-- Works on one message. -/
def attempt [Evaluator] (bytes : List UInt8) : Work Unit := do
  match Text.ofUtf8 bytes with
  | .error e => Work.fail (.notText e)
  | .ok t =>
    let t := Text.trim t
    Work.print ("Received: ".toList ++ t)
    if carriesScript t then
      match Json.read t with
      | .error e => Work.fail (.notJson e)
      | .ok message => runScript message

/-- Works on one message and prints what went wrong; a request to exit is passed on. -/
def message [Evaluator] (bytes : List UInt8) : Macro Unit := fun m ↦
  match attempt bytes m with
  | .ok _ m => .ok () m
  | .error .exhausted m => .error .exhausted m
  | .error (.failed fault) m =>
    match fault.exit? with
    | some fault => .error (.failed fault) m
    | none => Macro.print ("Error parsing/executing: ".toList ++ fault.message) m

/-- Receives what arrives, byte by byte; `none` stands for a wait without a byte
(`receive_and_execute`). `buffer` holds the bytes of the message under way, in reverse. -/
def receive [Evaluator] (buffer : List UInt8) : List (Option UInt8) → Macro Unit
  | [] => pure ()
  | none :: rest => do
    Macro.pause (.ok 10)
    receive buffer rest
  | some b :: rest =>
    if b == 10 then do
      message buffer.reverse
      receive [] rest
    else receive (b :: buffer) rest

/-- Greets and receives. -/
def run [Evaluator] (input : List (Option UInt8)) : Macro Unit := do
  Macro.print "Ready to receive and execute ducky scripts over UART."
  Macro.print "Deduplication logic is handled by ESP device."
  receive [] input

end Deskhand.Serial
