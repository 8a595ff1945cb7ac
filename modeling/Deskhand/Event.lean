import Deskhand.Hid.KeyReport
import Deskhand.Hid.MediaReport
import Deskhand.Hid.PointerReport
import Deskhand.Pause

/-!
# Events

What the outside sees of a run: reports sent, pauses made and lines printed, in order. A run is
given room for a number of events; the first one that finds no room ends it, and nothing can catch
that ending.
-/

namespace Deskhand

/-- Something the outside sees. -/
inductive Event where
  | key (report : Hid.KeyReport)
  | pointer (report : Hid.PointerReport)
  | media (report : Hid.MediaReport)
  | pause (milliseconds : Int)
  | print (line : Text)

/-- The events so far and the room left for more. -/
structure Trace where
  events : Array Event := #[]
  room : Nat
  deriving Inhabited

/-- How a run ends early: by a failure of its own, or because its allowance is used up. -/
inductive Halt (ε : Type) where
  | failed (error : ε)
  | exhausted

/-- The same ending with the failure seen from outside. -/
def Halt.map {ε δ : Type} (f : ε → δ) : Halt ε → Halt δ
  | .failed e => .failed (f e)
  | .exhausted => .exhausted

/-- A device's report together with the trace of the run it takes part in. -/
structure Port (ρ : Type) where
  report : ρ
  trace : Trace

/-- Work on one device: it changes the report, adds to the trace, and may end early. -/
abbrev Act (ρ α : Type) := EStateM (Halt Hid.Fault) (Port ρ) α

namespace Act

variable {ρ α : Type}

/-- Fails. -/
def fail (fault : Hid.Fault) : Act ρ α := throw (.failed fault)

/-- Adds an event to the trace, if there is room. -/
def emit (event : Event) : Act ρ Unit := fun port ↦
  match port.trace.room with
  | 0 => .error .exhausted port
  | room + 1 => .ok () { port with trace := { events := port.trace.events.push event, room } }

/-- Goes on with a result, or fails. -/
def ofExcept : Except Hid.Fault α → Act ρ α
  | .ok a => pure a
  | .error fault => fail fault

/-- Replaces the report. -/
def setReport (report : ρ) : Act ρ Unit := modify fun port ↦ { port with report }

/-- Makes a pause. -/
def pause (length : Except Hid.Fault Int) : Act ρ Unit := do emit (.pause (← ofExcept length))

end Act

end Deskhand
