import Deskhand.Proofs.MessageScript

/-!
# Watched runs

A run is watched by taking notes: one when a line is understood as a command, which then begins, and
one when the execution of a line ends, be it a line of a script, of a loop or of a function. The
watched functions below go the way of the functions they watch.
-/

namespace Deskhand.Script

/-- A note on a run. -/
inductive Note where
  /-- A line was understood as a command. -/
  | began (command : Command)
  /-- The execution of a line ended, early if there is a halt, and left a machine. -/
  | ended (halt : Option (Halt Fault)) (machine : Machine)

/-- Work of a macro run, and the notes taken of it. -/
def Watched (α : Type) : Type := Machine → List Note × EStateM.Result (Halt Fault) Machine α

namespace Watched

variable {α β : Type}

instance : Monad Watched where
  pure a := fun m ↦ ([], .ok a m)
  bind w next := fun m ↦
    match w m with
    | (notes, .ok a m) => (notes ++ (next a m).1, (next a m).2)
    | (notes, .error halt m) => (notes, .error halt m)

/-- The work without its notes. -/
def erase (w : Watched α) : Macro α := fun m ↦ (w m).2

/-- Work of which no note is taken. -/
def unseen (act : Macro α) : Watched α := fun m ↦ ([], act m)

/-- Takes a note. -/
def note (n : Note) : Watched Unit := fun m ↦ ([n], .ok () m)

/-- Why a result is early, if it is. -/
def haltOf : EStateM.Result (Halt Fault) Machine α → Option (Halt Fault)
  | .ok _ _ => none
  | .error halt _ => some halt

/-- The machine a result leaves. -/
def machineOf : EStateM.Result (Halt Fault) Machine α → Machine
  | .ok _ m => m
  | .error _ m => m

/-- Notes how work ends. -/
def marked (w : Watched α) : Watched α := fun m ↦
  ((w m).1 ++ [.ended (haltOf (w m).2) (machineOf (w m).2)], (w m).2)

/-- Goes on after a failure. -/
def recover (w : Watched Unit) (handle : Fault → Macro Unit) : Watched Unit := fun m ↦
  ((w m).1, Macro.recover (fun _ ↦ (w m).2) handle m)

/-! ### The interpreter, watched -/

section Interpreter

/-- Executes the lines of a loop body once. -/
def bodyOnce (execute : Text → List Text → Watched Nat) : List Text → Watched Unit
  | [] => pure ()
  | line :: rest => do
    let _ ← execute line rest
    bodyOnce execute rest

variable [Evaluator]

/-- Executes a loop body as long as the guard is equal to true. -/
def loopWhile (execute : Text → List Text → Watched Nat) (guard : Text) (body : List Text) :
    Nat → Watched Unit
  | 0 => unseen (throw .exhausted)
  | fuel + 1 => do
    let v ← unseen (Macro.evaluate guard)
    if v.equal (.bool true) then
      bodyOnce execute body
      loopWhile execute guard body fuel
    else pure ()

/-- Executes the lines of a function. -/
def callLines (execute : Text → List Text → Watched Nat) (name : Text) : List Text → Watched Unit
  | [] => pure ()
  | line :: rest => do
    let m ← unseen get
    let _ ← execute line ((m.functions.get? name).getD [])
    callLines execute name rest

/-- Executes what a command asks for. Loops and calls execute further lines, which are watched;
everything else is done unseen. -/
def perform (fuel : Nat) (execute : Text → List Text → Watched Nat) (rest : List Text) :
    Command → Watched Nat
  | .loop guard => do
    loopWhile execute guard (Macro.loopBody 1 rest).1 (fuel + 1)
    pure (Macro.loopBody 1 rest).2
  | .other line => do
    let m ← unseen get
    match m.functions.get? line with
    | some body => callLines execute line body
    | none => unseen (Macro.pressLine line)
    pure 0
  | command => unseen (Macro.perform fuel (fun _ _ ↦ pure 0) rest command)

/-- Executes a line and notes its command and its end. -/
def execute : Nat → Text → List Text → Watched Nat
  | 0, _, _ => marked (unseen (throw .exhausted))
  | fuel + 1, line, rest => marked do
    let line ← unseen (Macro.prepare line)
    note (.began (Command.ofLine line))
    perform fuel (execute fuel) rest (Command.ofLine line)

/-- Executes a line with as much fuel as the allowance of draws can use. -/
def line (text : Text) (rest : List Text) : Watched Nat := do
  let m ← unseen get
  execute (m.random.draws + 1) text rest

/-- Executes a line a number of times. -/
def repeatLine (text : Text) : Nat → List Text → Watched Nat
  | 0, _ => pure 0
  | count + 1, rest => do
    let taken ← line text rest
    unseen Macro.defaultPause
    let more ← repeatLine text count (rest.drop taken)
    pure (taken + more)

/-- Executes lines from the first to the last and tells whether they ask for a restart. -/
def runLines (previous : Text) (lines : List Text) : Watched Bool :=
  match lines with
  | [] => pure false
  | raw :: rest =>
    let text := Macro.withoutComment raw
    if text.isEmpty then runLines previous rest
    else if Text.startsWith text "REPEAT" then do
      let n ← unseen (Macro.ofExcept .notInteger (Number.readInt (text.drop 7)))
      let taken ← repeatLine previous n.toNat rest
      unseen Macro.defaultPause
      runLines previous (rest.drop taken)
    else if Text.startsWith text "RESTART_PAYLOAD" then pure true
    else if Text.startsWith text "STOP_PAYLOAD" then pure false
    else do
      let taken ← line text rest
      unseen Macro.defaultPause
      runLines text (rest.drop taken)
termination_by lines.length

/-- Runs lines again as long as they ask for it. -/
def runAgain (lines : List Text) : Nat → Watched Unit
  | 0 => unseen (throw .exhausted)
  | fuel + 1 => do
    let again ← runLines [] lines
    if again then runAgain lines fuel else pure ()

/-- Runs a script. -/
def script (t : Text) : Watched Unit := do
  let m ← unseen get
  runAgain (Text.lines t) (m.trace.room + m.random.draws + 2)

end Interpreter

/-! ### Work without its notes -/

@[simp]
theorem erase_pure (a : α) : erase (pure a) = (pure a : Macro α) := rfl

@[simp]
theorem erase_unseen (act : Macro α) : erase (unseen act) = act := rfl

@[simp]
theorem erase_marked (w : Watched α) : erase (marked w) = erase w := rfl

/-- Watched work in sequence after a value. -/
theorem bind_ok {w : Watched α} {next : α → Watched β} {m m' : Machine} {notes : List Note} {a : α}
    (h : w m = (notes, .ok a m')) :
    (w >>= next) m = (notes ++ (next a m').1, (next a m').2) := by
  unfold bind instMonad
  dsimp only
  rw [h]

/-- Watched work in sequence after a failure. -/
theorem bind_error {w : Watched α} {next : α → Watched β} {m m' : Machine} {notes : List Note}
    {halt : Halt Fault} (h : w m = (notes, .error halt m')) :
    (w >>= next) m = (notes, .error halt m') := by
  unfold bind instMonad
  dsimp only
  rw [h]

@[simp]
theorem erase_bind (w : Watched α) (next : α → Watched β) :
    erase (w >>= next) = erase w >>= fun a ↦ erase (next a) := by
  funext m
  rcases hw : w m with ⟨notes, r⟩
  have he : erase w m = r := by simp [erase, hw]
  cases r with
  | ok a m' =>
    rw [bind_of_ok he, erase, bind_ok hw]
    rfl
  | error halt m' => rw [bind_of_error he, erase, bind_error hw]

@[simp]
theorem erase_note (n : Note) : erase (note n) = (pure () : Macro Unit) := rfl

@[simp]
theorem erase_recover (w : Watched Unit) (handle : Fault → Macro Unit) :
    erase (recover w handle) = Macro.recover (erase w) handle := by
  funext m
  change Macro.recover (fun _ ↦ (w m).2) handle m = _
  rfl

end Watched

/-! ### Sequences of jobs -/

/-- Something to run: a script given as such, or a message of the serial line. -/
inductive Job where
  | script (t : Text)
  | message (bytes : List UInt8)

/-- The lines of the script that a job runs, if it runs one. -/
def Job.lines : Job → List Text
  | .script t => Text.lines t
  | .message bytes =>
    match Serial.scriptIn? bytes with
    | some (_, t) => Text.lines t
    | none => []

/-- Does a job. After a script that failed the next job starts from the machine it left. -/
def Job.run [Evaluator] : Job → Macro Unit
  | .script t => Macro.recover (Macro.script t) fun _ ↦ pure ()
  | .message bytes => Serial.message bytes

/-- Does jobs one after the other. -/
def Job.runAll [Evaluator] (jobs : List Job) : Macro Unit := jobs.forM Job.run

namespace Watched

/-- Does a job, watched. -/
def job [Evaluator] : Job → Watched Unit
  | .script t => recover (script t) fun _ ↦ pure ()
  | .message bytes =>
    match Serial.scriptIn? bytes with
    | some (text, s) =>
      recover (do
        unseen (Macro.print ("Received: ".toList ++ text))
        unseen (Macro.print "Executing script...")
        script s
        unseen (Macro.print "Script execution completed.")) fun fault ↦
          Macro.print (Serial.errorLine fault.message)
    | none => unseen (Serial.message bytes)

/-- Does jobs one after the other, watched. -/
def runAll [Evaluator] : List Job → Watched Unit
  | [] => pure ()
  | first :: rest => do
    job first
    runAll rest

end Watched

end Deskhand.Script
