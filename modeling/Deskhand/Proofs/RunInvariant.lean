import Deskhand.Proofs.Lifting
import Deskhand.Proofs.Primitives

/-!
# What single commands keep, runs keep

A single command that writes nothing down changes nothing of a machine but its devices, its random
numbers and its trace. Loops, calls, repetitions, restarts, scripts and whole sequences of jobs are
made of single commands and expressions. So a relation between machines that does not look at these
three, and that expressions and the commands that write keep, is kept by every run.
-/

namespace Deskhand.Script

/-- A command that changes the variables, the defined words, the functions or the default delay. -/
def Command.Writes : Command → Prop
  | .assign .. | .defaultDelay _ | .define .. | .function _ => True
  | _ => False

/-- The second machine differs from the first at most in its devices, its random numbers and its
trace. -/
def Outward (m m' : Machine) : Prop :=
  ∃ keyboard media random trace, m' = { m with keyboard, media, random, trace }

instance : IsPreorder Machine Outward where
  refl m := ⟨m.keyboard, m.media, m.random, m.trace, rfl⟩
  trans m m' m'' h₁ h₂ := by
    obtain ⟨keyboard, media, random, trace, rfl⟩ := h₁
    obtain ⟨keyboard', media', random', trace', rfl⟩ := h₂
    exact ⟨keyboard', media', random', trace', rfl⟩

/-- Random numbers and the trace are not looked at. -/
theorem outward_unobserved (m : Machine) (random : Random) (trace : Trace) :
    Outward m { m with random, trace } := ⟨m.keyboard, m.media, random, trace, rfl⟩

namespace Macro

variable {α : Type}

/-- Work on the keyboard is outward. -/
theorem outward_onKeyboard (act : Act Hid.KeyReport α) : Keeps Outward (onKeyboard act) := by
  refine ⟨fun m ↦ ?_⟩
  unfold onKeyboard
  match act ⟨m.keyboard, m.trace⟩ with
  | .ok a port => exact .ok ⟨port.report, m.media, m.random, port.trace, rfl⟩
  | .error (.failed fault) port => exact .failed ⟨port.report, m.media, m.random, port.trace, rfl⟩
  | .error .exhausted port => exact .exhausted

private theorem outward_onMedia (act : Act Hid.MediaReport α) : Keeps Outward (onMedia act) := by
  refine ⟨fun m ↦ ?_⟩
  unfold onMedia
  match act ⟨m.media, m.trace⟩ with
  | .ok a port => exact .ok ⟨m.keyboard, port.report, m.random, port.trace, rfl⟩
  | .error (.failed fault) port =>
    exact .failed ⟨m.keyboard, port.report, m.random, port.trace, rfl⟩
  | .error .exhausted port => exact .exhausted

theorem outward_typeEnter : Keeps Outward typeEnter :=
  Keeps.bind (outward_onKeyboard _) fun _ ↦ outward_onKeyboard _

variable [Evaluator]

private theorem outward_parts : Parts (fun act _ ↦ Keeps Outward act) (¬ ·.Writes) where
  pure := Keeps.pure
  bind := Keeps.bind
  fail _ := keeps_fail _
  print _ := outward_onMedia _
  pause := keeps_pause outward_unobserved
  typeText _ := outward_onKeyboard _
  typeEnter := outward_typeEnter
  hold _ _ := outward_onKeyboard _
  release _ _ := outward_onKeyboard _
  releaseAll _ := outward_onKeyboard _
  replaceVariables _ _ := keeps_replaceVariables
  replaceDefines _ := keeps_replaceDefines
  drawChar _ := keeps_drawChar outward_unobserved _
  evaluate hw := absurd trivial hw
  assign hw := absurd trivial hw
  defaultDelay hw := absurd trivial hw
  define hw := absurd trivial hw
  function hw := absurd trivial hw

/-- A line of keys is outward. -/
theorem outward_pressLine (line : Text) : Keeps Outward (pressLine line) := by
  refine outward_parts.pressLine (fun key ↦ ?_) (fun key ↦ ?_) line
  · unfold pressKey
    cases key with
    | key code => exact outward_onKeyboard _
    | media code => exact outward_onMedia _
  · unfold releaseKey
    cases key with
    | key code => exact outward_onKeyboard _
    | media code => exact outward_onMedia _

/-- A single command that writes nothing is outward. -/
theorem outward_perform {command : Command} (hs : command.IsSingle) (hw : ¬ command.Writes)
    (fuel : Nat) (execute : Text → List Text → Macro Nat) (rest : List Text) :
    Keeps Outward (perform fuel execute rest command) :=
  outward_parts.perform hs hw fuel fuel execute execute fun _ ↦ rfl

end Macro

variable {R : Machine → Machine → Prop}

private theorem keeps_recover [IsPreorder Machine R] {act : Macro Unit} (ha : Keeps R act)
    {handle : Fault → Macro Unit} (hh : ∀ fault, Keeps R (handle fault)) :
    Keeps R (Macro.recover act handle) := by
  refine ⟨fun m ↦ ?_⟩
  have hm := ha.ends m
  unfold Macro.recover
  generalize act m = r at hm
  cases hm with
  | ok h => exact .ok h
  | exhausted => exact .exhausted
  | failed h =>
    dsimp only
    split
    · exact .failed h
    · exact ((hh _).ends _).mono (fun _ _ hs ↦ trans_of R h hs) fun _ hs ↦ trans_of R h hs

variable [Evaluator]

/-- The relation is kept by outward work, by expressions, and by the commands of lines that write. -/
structure KeptBySteps (R : Machine → Machine → Prop) : Prop where
  outward : ∀ m m', Outward m m' → R m m'
  eval : ∀ t, Keeps R (Evaluator.eval t)
  writes : ∀ line, (Command.ofLine line).Writes → ∀ fuel execute rest,
    Keeps R (Macro.perform fuel execute rest (Command.ofLine line))

/-- Runs keep what their steps keep. -/
theorem KeptBySteps.oneRun [IsPreorder Machine R] (h : KeptBySteps R) :
    OneRun fun act ↦ Keeps R act where
  pure := Keeps.pure
  bind := Keeps.bind
  get := Keeps.get
  exhausted := Keeps.exhausted
  evaluate := Macro.keeps_evaluate h.eval
  prepare line := (Macro.keeps_prepare outward_unobserved line).mono h.outward
  single {line} hs fuel execute rest := by
    by_cases hw : (Command.ofLine line).Writes
    · exact h.writes _ hw fuel execute rest
    · exact (Macro.outward_perform hs hw fuel execute rest).mono h.outward
  keys line := (Macro.outward_pressLine line).mono h.outward
  readInt _ := Macro.keeps_ofExcept _ _
  pause := (Macro.keeps_defaultPause outward_unobserved).mono h.outward
  print line := (Macro.keeps_print outward_unobserved line).mono h.outward
  recover := keeps_recover

end Deskhand.Script
