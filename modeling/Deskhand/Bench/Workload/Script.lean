import Deskhand.Bench.SampleScript
import Deskhand.Serial.Receiver

/-!
# Workloads of macro scripts

Work for the interpreter of macro scripts, as large as asked for: whole scripts, lines of key names,
statements, and messages that carry scripts.
-/

namespace Deskhand.Bench.Workload

/-- The start of the random numbers in a workload. -/
def startSeed : UInt64 := 0

/-- More events and random numbers than any workload uses. -/
def ampleRoom : Nat := 1000000000

/-- Runs work on a machine of its own. -/
def onFreshMachine {α : Type} (work : Script.Macro α) : Except (Halt Script.Fault) α :=
  match work (.fresh startSeed ampleRoom ampleRoom) with
  | .ok a _ => .ok a
  | .error halt _ => .error halt

/-- The item of a list at a position, counted round and round. -/
def inTurn {α : Type} (l : List α) (otherwise : α) (i : Nat) : α := l.getD (i % l.length) otherwise

/-- The first items of a list repeated round and round. -/
def firstInTurn {α : Type} (l : List α) (otherwise : α) (n : Nat) : List α :=
  (List.range n).map (inTurn l otherwise)

/-- There are as many items as asked for. -/
@[simp]
theorem length_firstInTurn {α : Type} (l : List α) (otherwise : α) (n : Nat) :
    (firstInTurn l otherwise n).length = n := by
  simp [firstInTurn]

/-- Runs a script of `n` lines. -/
def script (n : Int) : Except (Halt Script.Fault) Outcome := onFreshMachine (runScript n)

/-- Names of keys: all that scripts have of their own, one that only the keyboard lists, and one
that stands for no key. -/
def keyNames : List Text :=
  (Script.scriptKeys ++ Script.scriptMediaKeys).map (·.1.toList)
    ++ ["KEYPAD_FIVE".toList, "NOSUCHKEY".toList]

/-- How many key names a line holds. -/
def namesPerLine : Nat := 40

/-- Lines that hold at least `n` key names, all of them full. -/
def keyLines (n : Nat) : List Text :=
  (List.range ((n + namesPerLine - 1) / namesPerLine)).map fun i ↦
    Text.join " " ((List.range namesPerLine).map fun j ↦
      inTurn keyNames [] (i * namesPerLine + j))

/-- What comes of reading lines of key names. -/
structure KeyTally where
  lines : Nat
  /-- The sum of all numbers of keys. -/
  total : Nat
  /-- The first numbers of the last line. -/
  last : List Nat

/-- Reads lines that hold at least `n` key names. -/
def keyTally (n : Int) : Except (Halt Script.Fault) KeyTally := onFreshMachine do
  let lines ← (keyLines n.toNat).mapM Script.Macro.keysOfLine
  let numbers := lines.map fun keys ↦ keys.map Script.Key.number
  pure ⟨numbers.length, numbers.flatten.foldl (· + ·) 0, (numbers.getLastD []).take 8⟩

/-- Statements on variables and names. -/
def statements : List Text := [
  "VAR $a = 1 + 1", "VAR $b = $a", "VAR $c = $a * $b + 1", "$a = $a + $c * 2",
  "$b = $a ^ $b + 4", "$c = $a > 100 && $b > 100", "$a = $a > 100 || $b > 100", "DEFINE #X zz",
  "PRINT $a"]

/-- Statements that are refused. -/
def badStatements : List Text := ["VAR a", "$a"]

/-- Whether a statement is refused. It leaves the state as it was. -/
def isRefused (line : Text) : Script.Macro Bool := fun m ↦
  match Script.Macro.line line [] m with
  | .ok _ _ => .ok false m
  | .error _ _ => .ok true m

/-- What comes of running statements. -/
structure StatementTally where
  «variables» : Table Script.Value
  defines : Table Text
  refused : Nat
  count : Nat

/-- Runs `n` statements in turn, then those that are refused. -/
def statementTally (n : Int) : Except (Halt Script.Fault) StatementTally := onFreshMachine do
  let lines := firstInTurn statements [] n.toNat
  lines.forM fun line ↦ do let _ ← Script.Macro.line line []
  let refused ← badStatements.filterM isRefused
  let m ← get
  pure {
    «variables» := m.variables.mergeSort fun a b ↦ Text.notAfter a.1 b.1
    defines := m.defines.mergeSort fun a b ↦ Text.notAfter a.1 b.1
    refused := refused.length
    count := lines.length }

/-- The message at a position in a stream: now and then it is no JSON, or carries no script. -/
def message (i : Nat) : String :=
  if i % 7 == 0 then "no message"
  else if i % 11 == 0 then "\x7b\"status\": \"idle\"\x7d"
  else "\x7b\"ducky_script\": \"STRING hello\"\x7d"

/-- The number of keyboard reports that `n` messages cause. -/
def serialReports (n : Int) : Except (Halt Script.Fault) Nat := onFreshMachine do
  let stream := (List.range n.toNat).flatMap fun i ↦ Text.toUtf8 ((message i).toList ++ ['\n'])
  Serial.run (stream.map some)
  pure (Outcome.ofMachine (← get)).reports

end Deskhand.Bench.Workload
