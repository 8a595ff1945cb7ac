import Deskhand.Hid.Layout

/-!
# Sessions with attached devices

A session knows the devices that are attached and opens a keyboard, a pointer or a media keypad on
the first one that fits, when it is first used. A wired device has to be connected before it can be
used: the session looks at the connection once a second until it is up, or gives up after a number
of tries.
-/

namespace Deskhand.Hid

/-- How a device is attached. -/
inductive Attachment where
  /-- Wired: it can be used once its connection is up. -/
  | wired
  /-- Wireless: it can be used at once. -/
  | wireless
  /-- Attached, but unable to send reports. -/
  | mute
  deriving DecidableEq

/-- An attached device, and the use it declares. -/
structure Device where
  attachment : Attachment
  label : Text
  page : Int
  usage : Int

/-- How the connection of wired devices is known. -/
inductive Connection where
  /-- It cannot be looked at, so a second is waited instead. -/
  | unknown
  /-- Every device counts as ready. -/
  | ignored
  /-- What one finds when looking, one reading after the other; the last one stays. -/
  | readings (first : Bool) (rest : List Bool)

/-- What is found when looking at the connection, and the readings left. -/
def Connection.look : Connection → Bool × Connection
  | .readings first [] => (first, .readings first [])
  | .readings first (next :: rest) => (first, .readings next rest)
  | c => (true, c)

/-- A session. -/
structure Session where
  devices : List Device
  connection : Connection
  /-- How many times to look before giving up; without a limit one looks for ever. -/
  tries : Option Int
  layout : Layout
  /-- What the host will report about the keyboard's lights. -/
  lights : List (Option UInt8)
  lightStatus : UInt8 := 0
  keyboard : Option (Device × KeyReport) := none
  pointer : Option (Device × PointerReport) := none
  media : Option (Device × MediaReport) := none
  trace : Trace

namespace Session

/-- Work within a session. -/
abbrev Work (α : Type) := EStateM (Halt Fault) Session α

/-- Does work on one device, given its report and how to put the new one back. -/
def actOn {ρ α : Type} (report : ρ) (put : ρ → Session → Session) (act : Act ρ α) :
    Work α := fun s ↦
  match act ⟨report, s.trace⟩ with
  | .ok a port => .ok a { put port.report s with trace := port.trace }
  | .error halt port => .error halt { put port.report s with trace := port.trace }

/-- Waits one second. -/
def waitSecond : Work Unit := actOn () (fun _ s ↦ s) (Act.emit (.pause 1000))

/-- Looks at the connection. -/
def look : Work Bool := do
  let (up, connection) := (← get).connection.look
  modify fun s ↦ { s with connection }
  pure up

/-- Looks once a second until the connection is up. -/
def waitForever : Nat → Work Unit
  | 0 => throw .exhausted
  | fuel + 1 => do
    if ← look then pure ()
    else
      waitSecond
      waitForever fuel

/-- Looks a number of times, a second apart, and fails if the connection was never up. -/
def waitFor : Nat → Work Unit
  | 0 => throw (.failed .notConnected)
  | tries + 1 => do
    if ← look then pure ()
    else
      waitSecond
      waitFor tries

/-- Waits until a device can be used. -/
def ready (device : Device) : Work Unit := do
  let s ← get
  match device.attachment, s.connection with
  | .wired, .unknown => waitSecond
  | .wired, .readings .. =>
    match s.tries with
    | none => waitForever (s.trace.room + 1)
    | some tries => waitFor tries.toNat
  | _, _ => pure ()

/-- Finds the first device of a use that can send reports, and waits until it can be used
(`find_device`). -/
def find (page usage : Int) : Work Device := do
  let found := (← get).devices.find? fun d ↦
    d.page == page && d.usage == usage && d.attachment != .mute
  match found with
  | none => throw (.failed .noDevice)
  | some device =>
    ready device
    pure device

/-- The keyboard, opened if it was not. -/
def openKeyboard : Work (Device × KeyReport) := do
  match (← get).keyboard with
  | some k => pure k
  | none =>
    let k := (← find 1 6, KeyReport.empty)
    modify fun s ↦ { s with keyboard := some k }
    pure k

/-- The pointer, opened if it was not. -/
def openPointer : Work (Device × PointerReport) := do
  match (← get).pointer with
  | some p => pure p
  | none =>
    let p := (← find 1 2, PointerReport.empty)
    modify fun s ↦ { s with pointer := some p }
    pure p

/-- The media keypad, opened if it was not. -/
def openMedia : Work (Device × MediaReport) := do
  match (← get).media with
  | some m => pure m
  | none =>
    let m := (← find 12 1, MediaReport.empty)
    modify fun s ↦ { s with media := some m }
    pure m

/-- Does work on the keyboard. -/
def onKeyboard {α : Type} (act : Act KeyReport α) : Work α := do
  let (device, report) ← openKeyboard
  actOn report (fun r s ↦ { s with keyboard := some (device, r) }) act

/-- Does work on the pointer. -/
def onPointer {α : Type} (act : Act PointerReport α) : Work α := do
  let (device, report) ← openPointer
  actOn report (fun r s ↦ { s with pointer := some (device, r) }) act

/-- Does work on the media keypad. -/
def onMedia {α : Type} (act : Act MediaReport α) : Work α := do
  let (device, report) ← openMedia
  actOn report (fun r s ↦ { s with media := some (device, r) }) act

/-- Types a text with the session's layout. -/
def typeText (delay : Option (Except Fault Int)) (t : Text) : Work Unit := do
  let layout := (← get).layout
  onKeyboard (layout.typeText delay t)

/-- The key codes of a character in the session's layout. -/
def keyCodes (t : Text) : Work (List KeyCode) := do
  let layout := (← get).layout
  onKeyboard (Act.ofExcept (layout.keyCodes t))

/-- The keyboard's lights as the host last reported them (`led_status`). -/
def lightByte : Work UInt8 := do
  let _ ← openKeyboard
  let s ← get
  let status := (s.lights.head?.join).getD s.lightStatus
  set { s with lights := s.lights.tail, lightStatus := status }
  pure status

/-- Whether one of the given lights is on (`led_on`). -/
def lightOn (lights : Int) : Work Bool := do
  let status ← lightByte
  pure (Bits.and status.toNat lights != 0)

end Session

end Deskhand.Hid
