import Deskhand.Script.Run

/-!
# A script to measure with

A script of a given number of lines that uses every kind of command, and what a run of it comes to.
-/

namespace Deskhand.Bench

/-- The lines of the script before its last one. -/
def sampleLines : List String :=
  ["REM a comment", "DEFAULT_DELAY 0", "DEFAULTDELAY 0", "DEFINE #GREET hello",
    "VAR $count = 1 + 1", "$count = $count + 1", "PRINT value is $count", "DELAY 0", "DELAY0",
    "LED 1", "LED_OFF", "LED_R", "LED_G", "WAIT_FOR_BUTTON_PRESS", "IMPORT foo", "IF TRUE",
    "END_IF", "HOLD SHIFT", "RELEASE SHIFT", "HOLD NOSUCH", "RELEASE NOSUCH",
    "STRING Hello #GREET World!", "STRINGLN Typed line $count", "STRING", "one", "two",
    "END_STRING", "STRINGLN", "alpha", "END_STRINGLN", "REM_BLOCK", "hidden 1", "END_REM",
    "FUNCTION greet", "STRING hi", "END_FUNCTION", "greet", "WHILE $count < 3",
    "$count = $count + 1", "END_WHILE", "RANDOM_LOWERCASE_LETTER", "RANDOM_UPPERCASE_LETTER",
    "RANDOM_LETTER", "RANDOM_NUMBER", "RANDOM_SPECIAL", "RANDOM_CHAR", "VID_RANDOM",
    "PROD_RANDOM", "SERIAL_RANDOM", "INJECT_MOD CTRL", "MK_VOLUP", "CTRL ALT DELETE", "GUI r",
    "RESET", "REPEAT 2"]

/-- The last line of a whole script. -/
def lastLine : String := "STOP_PAYLOAD"

/-- The lines that make a script longer, in turn. -/
def fillerLine (i : Nat) : String :=
  match i % 4 with
  | 0 => "STRING The quick brown fox jumps over the lazy dog 1234567890"
  | 1 => "CTRL SHIFT ESC"
  | 2 => "STRINGLN Another typed line with symbols !@#$%^&*()"
  | _ => "GUI r"

/-- The first `n` items of a list; a number below zero leaves out as many at the end. -/
def firstItems {α : Type} (n : Int) (l : List α) : List α :=
  if n < 0 then l.take (l.length - n.natAbs) else l.take n.toNat

/-- The lines of a script of `n` lines. -/
def scriptLines (n : Int) : List String :=
  let whole := sampleLines ++ [lastLine]
  if n ≤ whole.length then firstItems n whole
  else sampleLines ++ (List.range (n.toNat - whole.length)).map fillerLine ++ [lastLine]

/-- A script of `n` lines. -/
def script (n : Int) : Text := Text.join "\n" ((scriptLines n).map String.toList)

/-- What a run of a script comes to. -/
structure Outcome where
  reports : Nat
  functions : Nat
  /-- The variables, in the order of their names. -/
  «variables» : Table Script.Value

/-- Whether an event is a keyboard report. -/
def isKeyReport : Event → Bool
  | .key _ => true
  | _ => false

/-- What a run has come to. -/
def Outcome.ofMachine (m : Script.Machine) : Outcome where
  reports := (m.trace.events.toList.filter isKeyReport).length
  functions := m.functions.length
  «variables» := m.variables.mergeSort fun a b ↦ Text.notAfter a.1 b.1

/-- Runs a script of `n` lines on a fresh machine. -/
def runScript (n : Int) : Script.Macro Outcome := do
  Script.Macro.script (script n)
  pure (.ofMachine (← get))

end Deskhand.Bench
