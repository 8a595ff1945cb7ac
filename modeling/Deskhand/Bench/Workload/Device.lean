import Deskhand.Bench.Workload.Script
import Deskhand.Capture.Sender
import Deskhand.Hid.Session

/-!
# Workloads of devices

Work for the keyboard, the pointer and the sender of pictures, as large as asked for.
-/

namespace Deskhand.Bench.Workload

/-- The reports of a pointer that is dragged over a distance and then moved by short steps, one for
every hundred units of the distance and at least forty. -/
def pointerReports (distance : Int) : Except Hid.Fault (List Hid.PointerReport) := do
  let down ← Hid.PointerReport.empty.press 1
  let up ← down.release 1
  let steps := (List.replicate (max 40 (distance / 100).toNat) ()).flatMap fun _ ↦ up.moves 1 0 0
  return down :: down.moves distance 0 0 ++ up :: steps ++ [up.releaseAll]

/-- What comes of typing. -/
structure TypingTally where
  typed : Nat
  /-- The key codes of some characters. -/
  codes : List (List Hid.KeyCode)
  lightOn : Bool
  lights : UInt8

/-- A text to type. -/
def typedText : Text := "The quick brown fox jumps over the lazy dog 1234567890"

/-- A session with one keyboard, on which a sign needs a further key, and with all lights on. -/
def typingSession : Hid.Session where
  devices := [⟨.wireless, "K", 1, 6⟩]
  connection := .ignored
  tries := none
  layout := { Hid.Layout.us with altGr := "@" }
  lights := [some 0xFF]
  trace := { room := ampleRoom }

/-- Types `n` characters, looks up some others and looks at the lights. -/
def typing (n : Int) : Except (Halt Hid.Fault) TypingTally :=
  let work : Hid.Session.Work TypingTally := do
    let text := firstInTurn typedText ' ' n.toNat
    Hid.Session.typeText none text
    let codes ← (["a", "A", "@", " "].map String.toList).mapM Hid.Session.keyCodes
    let lightOn ← Hid.Session.lightOn 1
    pure ⟨text.length, codes, lightOn, ← Hid.Session.lightByte⟩
  match work typingSession with
  | .ok tally _ => .ok tally
  | .error halt _ => .error halt

/-- What comes of sending a picture: the second one does not arrive. -/
def post (i : Nat) : Capture.Post := if i == 1 then .failed "no connection" else .answered 200

/-- Whether an event is the pause after a picture. -/
def isPause : Event → Bool
  | .pause _ => true
  | _ => false

/-- Whether an event reports a picture that arrived. -/
def isArrival : Event → Bool
  | .print line => line == (Capture.Post.answered 200).report
  | _ => false

/-- The numbers of pictures taken and of those that arrived, of `n` pictures. -/
def pictures (n : Int) : Nat × Nat :=
  let events := Capture.run ((List.range n.toNat).map post)
  ((events.filter isPause).length, (events.filter isArrival).length)

end Deskhand.Bench.Workload
