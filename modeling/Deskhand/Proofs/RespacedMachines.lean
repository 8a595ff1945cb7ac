import Deskhand.Proofs.BlockExtent
import Deskhand.Proofs.Covering
import Deskhand.Proofs.SpacedCommands

/-!
# Machines that run respaced scripts

Two scripts whose lines are the same but for blanks after `DELAY` are run on two machines in step. A
line of keys may have more words in the one than in the other, each of which is told when it names no
key. So the second machine needs more room for its events, and the room is kept with the draws: each
line draws a number, and frees room for as many words as a line can have.
-/

namespace Deskhand.Script

open Broker (Gapped delayWord)

/-! ### Near machines -/

/-- Two lines that are the same but for blanks after `DELAY`, the second having fewer than `width`
blanks. -/
structure Respaced (loops : Prop) (width : Nat) (line line' : Text) : Prop where
  gapped : Gapped line line' ∨ Gapped line' line
  same : SameButGaps loops (Text.trim line) (Text.trim line')
  width : line'.count ' ' < width

/-- Two functions with the same name, in which there is no `DELAY`, and with such lines. -/
structure StoredAlike (loops : Prop) (width : Nat) (entry entry' : Text × List Text) : Prop where
  name : entry'.1 = entry.1
  plain : ¬ delayWord <:+: entry.1
  body : List.Forall₂ (Respaced loops width) entry.2 entry'.2

/-- The reports that a machine has sent. -/
def Machine.sent (m : Machine) : List Event := m.trace.sent

/-- Two machines that differ at most in the lines of their functions, in what they have printed and in
how long they have paused. No word is defined. For each line that can still be executed the second
machine has room to print `width` words more than the first, and room for `extra` events on top. -/
structure Machine.Near (loops : Prop) (width extra : Nat) (m m' : Machine) : Prop where
  same : ∃ functions trace, m' = { m with functions, trace }
  defines : m.defines = []
  functions : List.Forall₂ (StoredAlike loops width) m.functions m'.functions
  trace : m.trace.Near (width * m.random.draws + extra) m'.trace

namespace Machine.Near

variable {loops : Prop} {width extra : Nat} {m m' : Machine}

/-- Near machines have sent the same reports. -/
theorem sent (h : m.Near loops width extra m') : m'.sent = m.sent := h.trace.sent

/-- Less room on top will do. -/
theorem mono (h : m.Near loops width extra m') {less : Nat} (hle : less ≤ extra) :
    m.Near loops width less m' :=
  ⟨h.same, h.defines, h.functions, h.trace.sent,
    Nat.le_trans (Nat.add_le_add_left (Nat.add_le_add_left hle _) _) h.trace.room⟩

end Machine.Near

namespace Macro

variable {α : Type} {loops : Prop} {width extra extra' : Nat}

end Macro

end Deskhand.Script
