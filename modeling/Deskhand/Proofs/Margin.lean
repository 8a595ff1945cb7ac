import Deskhand.Proofs.Lifting
import Deskhand.Proofs.Primitives

/-!
# More allowance changes nothing

A run never looks at the events before it, and it looks at its allowance only to see whether some is
left. So a run that comes to an end does the same with a larger allowance and with other events
before its own: it ends with the same value or fault, in the same state, with the same events added.
With the same allowance, a run that comes to no end comes to none after other events either.
-/

namespace Deskhand

open Script (Machine Macro)

/-- Events before those of a run, and an allowance on top of what it has. -/
structure Margin where
  earlier : Array Event := #[]
  room : Nat := 0
  draws : Nat := 0

/-- The allowance is larger. -/
def Margin.Spare (w : Margin) : Prop := 0 < w.room ∨ 0 < w.draws

/-- A run with the second amount of fuel goes on as long as one with the first, and longer only if
there is allowance to spare. -/
structure Margin.Fuels (w : Margin) (fuel fuel' : Nat) : Prop where
  le : fuel ≤ fuel'
  spare : w.Spare ∨ fuel' = fuel

/-- A trace with other events before its own and with more room. -/
def Trace.widen (w : Margin) (trace : Trace) : Trace :=
  { events := w.earlier ++ trace.events, room := trace.room + w.room }

/-- A port with a wider trace. -/
def Port.widen {ρ : Type} (w : Margin) (port : Port ρ) : Port ρ :=
  { port with trace := port.trace.widen w }

/-- A machine with a wider trace and with more draws. -/
def Script.Machine.widen (w : Margin) (m : Machine) : Machine :=
  { m with
    random := { m.random with draws := m.random.draws + w.draws },
    trace := m.trace.widen w }

variable {w : Margin}

/-- The same holds after each has used some up. -/
theorem Margin.Fuels.pred {fuel fuel' : Nat} (h : w.Fuels (fuel + 1) fuel') :
    ∃ k, fuel' = k + 1 ∧ w.Fuels fuel k := by
  have hle := h.le
  refine ⟨fuel' - 1, by omega, by omega, h.spare.imp_right fun he ↦ by omega⟩

/-- The same holds before each has used some up. -/
theorem Margin.Fuels.succ {fuel fuel' : Nat} (h : w.Fuels fuel fuel') :
    w.Fuels (fuel + 1) (fuel' + 1) :=
  ⟨Nat.succ_le_succ h.le, h.spare.imp_right (congrArg (· + 1))⟩

/-! ### The devices -/

namespace Act

variable {ρ α : Type}

/-- Adding an event follows. -/
theorem follows_emit (event : Event) :
    Follows w.Spare (Port.widen w) (emit event : Act ρ Unit) (emit event) := by
  refine ⟨fun port ↦ ?_⟩
  obtain ⟨report, events, room⟩ := port
  cases room with
  | zero =>
    refine .exhausted _ _ ((Nat.eq_zero_or_pos w.room).symm.imp .inl fun hroom ↦ ?_)
    simp only [emit, Port.widen, Trace.widen, hroom]
  | succ room =>
    have hroom : room + 1 + w.room = (room + w.room) + 1 := by omega
    have hwide : emit event (Port.widen w ⟨report, events, room + 1⟩)
        = .ok () (Port.widen w ⟨report, events.push event, room⟩) := by
      simp only [emit, Port.widen, Trace.widen, hroom, Array.append_push]
    rw [hwide]
    exact .ok () _

private theorem follows_setReport (report : ρ) :
    Follows w.Spare (Port.widen w) (setReport report : Act ρ Unit) (setReport report) :=
  Follows.modify fun _ ↦ rfl

private theorem follows_ofExcept (r : Except Hid.Fault α) :
    Follows w.Spare (Port.widen w) (ofExcept r : Act ρ α) (ofExcept r) := by
  cases r with
  | ok a => exact Follows.pure a
  | error fault => exact Follows.failed fault

private theorem follows_pause (length : Except Hid.Fault Int) :
    Follows w.Spare (Port.widen w) (pause length : Act ρ Unit) (pause length) :=
  Follows.bind (follows_ofExcept length) fun ms ↦ follows_emit (.pause ms)

end Act

namespace Hid

/-- Sending the report as it stands follows. -/
theorem Keyboard.follows_send : Follows w.Spare (Port.widen w) send send :=
  Follows.get fun port ↦ Act.follows_emit (.key port.report)

/-- Pressing keys follows. -/
theorem Keyboard.follows_press (codes : List KeyCode) :
    Follows w.Spare (Port.widen w) (press codes) (press codes) := by
  unfold press
  refine Follows.get fun port ↦ ?_
  have hreport : (port.widen w).report = port.report := rfl
  rw [hreport]
  rcases port.report.pressAll codes with ⟨report, fault⟩
  refine Follows.bind (Act.follows_setReport report) fun _ ↦ ?_
  cases fault with
  | some fault => exact Follows.failed fault
  | none => exact follows_send

/-- Releasing keys follows. -/
theorem Keyboard.follows_release (codes : List KeyCode) :
    Follows w.Spare (Port.widen w) (release codes) (release codes) :=
  Follows.get fun _ ↦ Follows.bind (Act.follows_setReport _) fun _ ↦ follows_send

private theorem Keyboard.follows_releaseAll :
    Follows w.Spare (Port.widen w) releaseAll releaseAll :=
  Follows.bind (Act.follows_setReport _) fun _ ↦ follows_send

/-- Pressing a media code follows. -/
theorem Media.follows_press (code : Int) :
    Follows w.Spare (Port.widen w) (press code) (press code) := by
  unfold press
  refine Follows.get fun port ↦ ?_
  have hreport : (port.widen w).report = port.report := rfl
  rw [hreport]
  rcases port.report.press code with ⟨report, fault⟩
  refine Follows.bind (Act.follows_setReport report) fun _ ↦ ?_
  cases fault with
  | some fault => exact Follows.failed fault
  | none => exact Act.follows_emit _

/-- Releasing the media code follows. -/
theorem Media.follows_release : Follows w.Spare (Port.widen w) release release :=
  Follows.bind (Act.follows_setReport _) fun _ ↦ Act.follows_emit _

/-- Typing a character follows. -/
theorem Layout.follows_typeChar (l : Layout) (c : Char) :
    Follows w.Spare (Port.widen w) (l.typeChar c) (l.typeChar c) := by
  unfold typeChar
  rcases l.strokes c with ⟨strokes, fault⟩
  refine Follows.bind (Follows.forM (fun s ↦ ?_) strokes) fun _ ↦ ?_
  · rw [typeStroke_eq_forM]
    exact Follows.bind (Follows.forM (fun code ↦ Keyboard.follows_press [code]) s.codes) fun _ ↦
      Keyboard.follows_releaseAll
  · cases fault with
    | some fault => exact Follows.failed fault
    | none => exact Follows.pure ()

private theorem Layout.follows_typeText (l : Layout) (t : Text) :
    Follows w.Spare (Port.widen w) (l.typeText none t) (l.typeText none t) :=
  Follows.forM (fun c ↦ Follows.bind (l.follows_typeChar c) fun _ ↦ Follows.pure ()) t

end Hid

/-! ### Macro runs -/

namespace Script

namespace Macro

variable {α ε : Type}

/-- Work on one of the devices. -/
def onPort {ρ : Type} (port : Machine → Port ρ) (put : Machine → Port ρ → Machine) (act : Act ρ α) :
    Macro α := fun m ↦
  match act (port m) with
  | .ok a p => .ok a (put m p)
  | .error halt p => .error (halt.map .device) (put m p)

theorem onKeyboard_eq_onPort (act : Act Hid.KeyReport α) :
    onKeyboard act = onPort (fun m ↦ ⟨m.keyboard, m.trace⟩)
      (fun m p ↦ { m with keyboard := p.report, trace := p.trace }) act := by
  funext m
  unfold onKeyboard onPort
  cases act ⟨m.keyboard, m.trace⟩ <;> rfl

theorem onMedia_eq_onPort (act : Act Hid.MediaReport α) :
    onMedia act = onPort (fun m ↦ ⟨m.media, m.trace⟩)
      (fun m p ↦ { m with media := p.report, trace := p.trace }) act := by
  funext m
  unfold onMedia onPort
  cases act ⟨m.media, m.trace⟩ <;> rfl

private theorem follows_onPort {ρ : Type} {port : Machine → Port ρ}
    {put : Machine → Port ρ → Machine} (hport : ∀ m, port (m.widen w) = (port m).widen w)
    (hput : ∀ m p, put (m.widen w) (p.widen w) = (put m p).widen w) {act : Act ρ α}
    (h : Follows w.Spare (Port.widen w) act act) :
    Follows w.Spare (Machine.widen w) (onPort port put act) (onPort port put act) := by
  refine ⟨fun m ↦ ?_⟩
  have hp := h.alike (port m)
  unfold onPort
  rw [hport]
  generalize act (port m) = r at hp
  generalize act ((port m).widen w) = r' at hp
  cases hp with
  | ok a p =>
    dsimp only
    rw [hput]
    exact .ok a _
  | failed e p =>
    dsimp only
    rw [hput]
    exact .failed _ _
  | exhausted p r h =>
    refine .exhausted _ _ (h.imp_right ?_)
    rintro rfl
    dsimp only
    rw [hput]
    rfl

private theorem follows_onKeyboard {act : Act Hid.KeyReport α}
    (h : Follows w.Spare (Port.widen w) act act) :
    Follows w.Spare (Machine.widen w) (onKeyboard act) (onKeyboard act) := by
  rw [onKeyboard_eq_onPort]
  exact follows_onPort (fun _ ↦ rfl) (fun _ _ ↦ rfl) h

private theorem follows_onMedia {act : Act Hid.MediaReport α}
    (h : Follows w.Spare (Port.widen w) act act) :
    Follows w.Spare (Machine.widen w) (onMedia act) (onMedia act) := by
  rw [onMedia_eq_onPort]
  exact follows_onPort (fun _ ↦ rfl) (fun _ _ ↦ rfl) h

theorem follows_print (line : Text) : Follows w.Spare (Machine.widen w) (print line) (print line) :=
  follows_onMedia (Act.follows_emit (.print line))

theorem follows_drawBelow (n : Nat) :
    Follows w.Spare (Machine.widen w) (drawBelow n) (drawBelow n) := by
  refine ⟨fun m ↦ ?_⟩
  have hdraws : (m.widen w).random.draws = m.random.draws + w.draws := rfl
  unfold drawBelow
  rw [hdraws]
  cases hd : m.random.draws with
  | zero =>
    refine .exhausted _ _ ((Nat.eq_zero_or_pos w.draws).symm.imp .inr fun hdraws ↦ ?_)
    rw [hdraws]
  | succ draws =>
    rw [show draws + 1 + w.draws = draws + w.draws + 1 by omega]
    exact .ok _ _

private theorem follows_ofExcept (f : ε → Fault) (r : Except ε α) :
    Follows w.Spare (Machine.widen w) (ofExcept f r) (ofExcept f r) := by
  cases r with
  | ok a => exact Follows.pure a
  | error e => exact Follows.failed (f e)

private theorem follows_replaceNames (line : Text) (names : Table Value) :
    Follows w.Spare (Machine.widen w) (replaceNames line names) (replaceNames line names) := by
  induction names generalizing line with
  | nil => exact Follows.pure line
  | cons entry rest ih =>
    refine Follows.bind ?_ fun shown ↦ ih _
    unfold display
    split
    · exact Follows.pure _
    · exact Follows.failed _

theorem follows_replaceVariables (line : Text) :
    Follows w.Spare (Machine.widen w) (replaceVariables line) (replaceVariables line) :=
  Follows.get fun m ↦ Follows.bind (follows_replaceNames line m.variables) fun line ↦
    Follows.get fun m ↦ follows_replaceNames line m.internals

theorem follows_replaceDefines (line : Text) :
    Follows w.Spare (Machine.widen w) (replaceDefines line) (replaceDefines line) :=
  Follows.get fun _ ↦ Follows.pure _

theorem follows_bound (name : Text) (otherwise : Int) :
    Follows w.Spare (Machine.widen w) (bound name otherwise) (bound name otherwise) := by
  refine Follows.get fun m ↦ ?_
  have hvars : (m.widen w).variables = m.variables := rfl
  rw [hvars]
  cases m.variables.get? name with
  | none => exact Follows.pure _
  | some v =>
    refine Follows.bind (follows_ofExcept _ _) fun v ↦ ?_
    split
    · exact Follows.pure _
    · exact Follows.pure _

theorem follows_defaultPause : Follows w.Spare (Machine.widen w) defaultPause defaultPause :=
  Follows.get fun _ ↦ follows_onMedia (Act.follows_pause _)

private theorem follows_pressKey (key : Key) :
    Follows w.Spare (Machine.widen w) (pressKey key) (pressKey key) := by
  cases key with
  | key code => exact follows_onKeyboard (Hid.Keyboard.follows_press _)
  | media code =>
    rw [pressKey]
    exact follows_onMedia (Hid.Media.follows_press code)

private theorem follows_releaseKey (key : Key) :
    Follows w.Spare (Machine.widen w) (releaseKey key) (releaseKey key) := by
  cases key with
  | key code => exact follows_onKeyboard (Hid.Keyboard.follows_release _)
  | media code => exact follows_onMedia Hid.Media.follows_release

private theorem follows_recover {act act' : Macro Unit}
    (ha : Follows w.Spare (Machine.widen w) act act') {handle : Fault → Macro Unit}
    (hh : ∀ fault, Follows w.Spare (Machine.widen w) (handle fault) (handle fault)) :
    Follows w.Spare (Machine.widen w) (recover act handle) (recover act' handle) := by
  refine ⟨fun m ↦ ?_⟩
  have hm := ha.alike m
  unfold recover
  generalize act m = r at hm
  generalize act' (m.widen w) = r' at hm
  cases hm with
  | ok a m' => exact .ok a m'
  | failed fault m' =>
    dsimp only
    split
    · exact .failed fault m'
    · exact (hh fault).alike m'
  | exhausted m' r h =>
    refine .exhausted m' _ (h.imp_right ?_)
    rintro rfl
    rfl

end Macro

/-- Expressions take no notice of the events so far and of the allowance. -/
class Evaluator.Steady [Evaluator] : Prop where
  follows (w : Margin) (t : Text) :
    Follows w.Spare (Machine.widen w) (Evaluator.eval t) (Evaluator.eval t)

/-- The calculator looks at nothing but the text. -/
instance Evaluator.steady_calculator : Evaluator.Steady :=
  ⟨fun _ _ ↦ Macro.follows_ofExcept _ _⟩

variable [Evaluator] [Evaluator.Steady]

namespace Macro

theorem follows_evaluate (t : Text) :
    Follows w.Spare (Machine.widen w) (Macro.evaluate t) (Macro.evaluate t) := by
  refine Follows.get fun m ↦ ?_
  have hvars : (m.widen w).variables = m.variables := rfl
  rw [hvars]
  cases substitute m.variables none t with
  | none => exact Follows.failed _
  | some t => exact Evaluator.Steady.follows w _

theorem follows_parts :
    Parts (fun act act' ↦ Follows w.Spare (Machine.widen w) act act') fun _ ↦ True where
  pure := Follows.pure
  bind := Follows.bind
  fail _ := Follows.failed _
  print := follows_print
  pause _ := follows_onMedia (Act.follows_pause _)
  typeText t := follows_onKeyboard (Hid.Layout.us.follows_typeText t)
  typeEnter := Follows.bind (follows_onKeyboard (Hid.Keyboard.follows_press _)) fun _ ↦
    follows_onKeyboard (Hid.Keyboard.follows_release _)
  hold _ _ := follows_onKeyboard (Hid.Keyboard.follows_press _)
  release _ _ := follows_onKeyboard (Hid.Keyboard.follows_release _)
  releaseAll _ := follows_onKeyboard Hid.Keyboard.follows_releaseAll
  replaceVariables _ _ := follows_replaceVariables
  replaceDefines _ := follows_replaceDefines
  drawChar _ := Follows.bind (follows_drawBelow _) fun _ ↦ Follows.pure _
  evaluate _ := follows_evaluate _
  assign _ _ := Follows.modify fun _ ↦ rfl
  defaultDelay _ _ := Follows.modify fun _ ↦ rfl
  define _ := Follows.modify fun _ ↦ rfl
  function _ _ := Follows.modify fun _ ↦ rfl

end Macro

open Macro in
/-- A run of the same lines with a wider trace and more draws goes on as long as the run, and longer
only if there is allowance to spare. -/
theorem twoRuns_widen (w : Margin) : TwoRuns (fun _ ↦ True) w.Fuels (fun m m' ↦ m' = m.widen w)
    fun act act' ↦ Follows w.Spare (Machine.widen w) act act' where
  pure := Follows.pure
  bind := Follows.bind
  get hn := Follows.get fun m ↦ hn m _ rfl
  exhausted := Follows.exhausted (.inr rfl)
  spare hf _ := Follows.exhausted (.inl (hf.spare.resolve_right (Nat.succ_ne_zero _)))
  pred := Margin.Fuels.pred
  succ := Margin.Fuels.succ
  functions hm := by rw [hm]; rfl
  stored _ _ _ _ _ _ := trivial
  draws := by
    rintro m _ rfl
    have hdraws : (m.widen w).random.draws = m.random.draws + w.draws := rfl
    refine ⟨by omega, ?_⟩
    unfold Margin.Spare
    omega
  allowance := by
    rintro m _ rfl
    have hroom : (m.widen w).trace.room = m.trace.room + w.room := rfl
    have hdraws : (m.widen w).random.draws = m.random.draws + w.draws := rfl
    refine ⟨by omega, ?_⟩
    unfold Margin.Spare
    omega
  evaluate := follows_evaluate
  prepare _ _ _ hn := Follows.bind
    (follows_parts.prepare follows_bound follows_drawBelow follows_replaceDefines _) fun line ↦
      hn line trivial
  single _ hs _ _ fuel fuel' execute execute' :=
    follows_parts.perform hs trivial fuel fuel' execute execute' fun _ ↦ rfl
  keys := follows_parts.pressLine follows_pressKey follows_releaseKey
  readInt t := follows_parts.ofExcept (fun _ ↦ rfl) _
  pause := follows_defaultPause
  nil := trivial
  text _ := trivial
  print := follows_print
  recover := follows_recover

end Script

/-! ### Machines with their events and allowance set -/

namespace Script

/-- A machine with the given events so far and the given allowance. -/
def Machine.placed (m : Machine) (events : Array Event) (room draws : Nat) : Machine :=
  { m with random := { m.random with draws }, trace := { events, room } }

/-- A machine without its events and its allowance: what one run leaves to the next. -/
def Machine.state (m : Machine) : Machine := m.placed #[] 0 0

section Placed

variable {α : Type} {act : Macro α}
  (h : ∀ w : Margin, Follows w.Spare (Machine.widen w) act act)
  {m m' : Machine} {room draws : Nat} (earlier : Array Event) (room' draws' : Nat)

include h

/-- The same work without events before it, and after other events and with more allowance. -/
theorem alike_placed (m : Machine) (room draws : Nat) :
    Alike (Margin.Spare ⟨earlier, room', draws'⟩) (Machine.widen ⟨earlier, room', draws'⟩)
      (act (m.placed #[] room draws))
      (act (m.placed earlier (room + room') (draws + draws'))) := by
  have hm := (h ⟨earlier, room', draws'⟩).alike (m.placed #[] room draws)
  have hwide : (m.placed #[] room draws).widen ⟨earlier, room', draws'⟩
      = m.placed (earlier ++ #[]) (room + room') (draws + draws') := rfl
  rwa [hwide, Array.append_empty] at hm

end Placed

end Script

end Deskhand
