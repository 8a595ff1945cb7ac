import Deskhand.Script.Command
import Deskhand.Script.Machine
import Deskhand.Text.Lines

/-!
# Running macro scripts

Executing a line may take some of the lines after it: the rest of a remark or of a text to type, the
body of a function or of a loop. Executing says how many it took. A loop and a function call execute
their lines like any others, each with the lines after it in the body at hand.

Every line draws a random number, so the allowance of draws bounds how deeply calls and loops can
nest and how often they repeat; `fuel` counts that bound down.
-/

namespace Deskhand.Script.Macro

open Deskhand (Text)

variable [Evaluator]

/-- How many lines a block takes: those up to and including the first that ends it, if one does. -/
def blockLength? (ends : Text → Bool) (rest : List Text) : Option Nat :=
  (rest.findIdx? ends).map (· + 1)

/-- The body of a loop and the number of lines taken, the end mark included. Lines that open a
further loop need an end mark of their own. Without an end mark the body is everything. -/
def loopBody (depth : Nat) : List Text → List Text × Nat
  | [] => ([], 0)
  | line :: rest =>
    let upper := Text.upper line
    let further (depth : Nat) : List Text × Nat :=
      let (body, taken) := loopBody depth rest
      (line :: body, taken + 1)
    if Text.startsWith upper "WHILE" then further (depth + 1)
    else if Text.startsWith upper "END_WHILE" then
      if depth == 1 then ([], 1) else further (depth - 1)
    else further depth

/-- Types the lines of a block up to its end mark, which is looked for after the names in a line were
replaced. Defined words are replaced from the second line on. Returns the number of lines taken. -/
def typeBlock (enter : Bool) (endMark : Text) (first : Bool) : List Text → Macro Nat
  | [] => fail .endOfLines
  | line :: rest => do
    let line ← replaceVariables (Text.trim line)
    let line ← if first then pure line else replaceDefines line
    if Text.startsWith line endMark then pure 1
    else
      typeText line
      if enter then typeEnter
      pure ((← typeBlock enter endMark false rest) + 1)

/-- Stores the lines up to the end mark as a function. If the mark is missing, the lines are stored
all the same before the failure. Returns the number of lines taken. -/
def storeFunction (name : Text) (rest : List Text) : Macro Nat := do
  let lines := rest.map Text.trim
  let body := lines.takeWhile (· != "END_FUNCTION".toList)
  modify fun m ↦ { m with functions := m.functions.put name body }
  if body.length < lines.length then pure (body.length + 1) else fail .endOfLines

/-- Executes the lines of a loop body once, each with the lines after it at hand. -/
def bodyOnce (execute : Text → List Text → Macro Nat) : List Text → Macro Unit
  | [] => pure ()
  | line :: rest => do
    let _ ← execute line rest
    bodyOnce execute rest

/-- Executes a loop body as long as the guard is equal to true, at most `fuel` times. -/
def loopWhile (execute : Text → List Text → Macro Nat) (guard : Text) (body : List Text) :
    Nat → Macro Unit
  | 0 => throw .exhausted
  | fuel + 1 => do
    let v ← evaluate guard
    if v.equal (.bool true) then
      bodyOnce execute body
      loopWhile execute guard body fuel
    else pure ()

/-- Executes the lines of a function, each with all lines the function has at that moment at hand. -/
def callLines (execute : Text → List Text → Macro Nat) (name : Text) : List Text → Macro Unit
  | [] => pure ()
  | line :: rest => do
    let body := ((← get).functions.get? name).getD []
    let _ ← execute line body
    callLines execute name rest

/-- Executes what a command asks for, `execute` being used for the lines of loops and functions.
Returns the number of following lines taken. -/
def perform (fuel : Nat) (execute : Text → List Text → Macro Nat) (rest : List Text) :
    Command → Macro Nat
  | .ignore => pure 0
  | .skipBlock =>
    match blockLength? (fun line ↦ Text.startsWith (Text.trim line) "END_REM") rest with
    | some taken => pure taken
    | none => fail .endOfLines
  | .hold name => do
    match scriptKey? name with
    | some code => onKeyboard (Hid.Keyboard.press [code])
    | none => print ("Unknown key to HOLD: <".toList ++ name ++ ">".toList)
    pure 0
  | .release name => do
    match scriptKey? name with
    | some code => onKeyboard (Hid.Keyboard.release [code])
    | none => print ("Unknown key to RELEASE: <".toList ++ name ++ ">".toList)
    pure 0
  | .delay none => pure 0
  | .delay (some ds) => do
    let n ← ofExcept .notInteger (Number.readInt ds)
    pause (Pause.ofMillis n.toNat)
    pure 0
  | .typeBlock enter => typeBlock enter (if enter then "END_STRINGLN" else "END_STRING") true rest
  | .type enter t => do
    typeText (← replaceVariables t)
    if enter then typeEnter
    pure 0
  | .print t => do
    print ("[SCRIPT]: ".toList ++ (← replaceVariables t))
    pure 0
  | .defaultDelay t => do
    let n ← ofExcept .notInteger (Number.readInt t)
    modify fun m ↦ { m with defaultDelay := n * 10 }
    pure 0
  | .assign name e => do
    let v ← evaluate e
    modify fun m ↦ { m with «variables» := m.variables.put name v }
    pure 0
  | .badDeclaration line => fail (.badDeclaration line)
  | .badAssignment line => fail (.badAssignment line)
  | .define word value => do
    modify fun m ↦ { m with defines := m.defines.put word value }
    pure 0
  | .function none => fail .noFunctionName
  | .function (some name) => storeFunction name rest
  | .loop guard => do
    let (body, taken) := loopBody 1 rest
    loopWhile execute guard body (fuel + 1)
    pure taken
  | .random pool count => do
    (List.range count).forM fun _ ↦ do typeText [← drawChar pool.chars]
    pure 0
  | .releaseAll => do
    onKeyboard Hid.Keyboard.releaseAll
    pure 0
  | .other line => do
    match (← get).functions.get? line with
    | some body => callLines execute line body
    | none => pressLine line
    pure 0

/-- Executes a line, given the lines after it (`parseLine`). Returns the number of those it took. -/
def execute : Nat → Text → List Text → Macro Nat
  | 0, _, _ => throw .exhausted
  | fuel + 1, line, rest => do
    let line ← prepare line
    perform fuel (execute fuel) rest (Command.ofLine line)

/-- Executes a line, given the lines after it, with as much fuel as the allowance of draws can
use. -/
def line (text : Text) (rest : List Text) : Macro Nat := do
  execute ((← get).random.draws + 1) text rest

/-- The part of a line before a comment, trimmed. -/
def withoutComment (line : Text) : Text := Text.trim (line.takeWhile (· != '#'))

/-- Pauses for the default delay. -/
def defaultPause : Macro Unit := do pause (Pause.ofDelay (← get).defaultDelay)

/-- Executes a line a number of times, with the default delay after each, and returns the number of
following lines taken. -/
def repeatLine (text : Text) : Nat → List Text → Macro Nat
  | 0, _ => pure 0
  | count + 1, rest => do
    let taken ← line text rest
    defaultPause
    pure (taken + (← repeatLine text count (rest.drop taken)))

/-- Executes lines from the first to the last and tells whether the script asked to be restarted.
`previous` is the last line that was executed. -/
def runLines (previous : Text) (lines : List Text) : Macro Bool :=
  match lines with
  | [] => pure false
  | raw :: rest =>
    let text := withoutComment raw
    if text.isEmpty then runLines previous rest
    else if Text.startsWith text "REPEAT" then do
      let n ← ofExcept .notInteger (Number.readInt (text.drop 7))
      let taken ← repeatLine previous n.toNat rest
      defaultPause
      runLines previous (rest.drop taken)
    else if Text.startsWith text "RESTART_PAYLOAD" then pure true
    else if Text.startsWith text "STOP_PAYLOAD" then pure false
    else do
      let taken ← line text rest
      defaultPause
      runLines text (rest.drop taken)
termination_by lines.length

/-- Runs lines again as long as they ask for it, at most `fuel` times. -/
def runAgain (lines : List Text) : Nat → Macro Unit
  | 0 => throw .exhausted
  | fuel + 1 => do
    if ← runLines [] lines then runAgain lines fuel

/-- Runs a script (`run_ducky_script_from_string`). A pass that asks for a restart without an event
or a draw would repeat for ever, so the allowance bounds the number of passes. -/
def script (t : Text) : Macro Unit := do
  let m ← get
  runAgain (Text.lines t) (m.trace.room + m.random.draws + 2)

end Deskhand.Script.Macro
