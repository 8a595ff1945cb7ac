import Deskhand.Event

/-!
# Sending pictures of the screen

Pictures are taken one after the other, sent to the assistant and thrown away, with a short pause in
between. A picture that cannot be sent is reported and does not stop the sender.
-/

namespace Deskhand.Capture

/-- Where pictures are sent. -/
def address : Text := "http://localhost:8000/upload_screenshot"

/-- The form field that holds a picture. -/
def formField : Text := "screenshot"

/-- The pause after each picture, in milliseconds. -/
def pauseLength : Int := 100

/-- What comes of sending a picture. -/
inductive Post where
  | answered (status : Int)
  | failed (message : Text)
  deriving DecidableEq

/-- What is printed about a picture. -/
def Post.report : Post → Text
  | .answered status => "Screenshot sent, response: ".toList ++ Text.ofInt status
  | .failed message => "Failed to send screenshot: ".toList ++ message

/-- What the outside sees of one picture. -/
def frame (post : Post) : List Event := [.print post.report, .pause pauseLength]

/-- What the outside sees of a run of pictures (`capture_and_send`). -/
def run (posts : List Post) : List Event := posts.flatMap frame

/-- How the sender ends. -/
inductive Ending where
  /-- It did not start, and says so by its status. -/
  | refused (status : Nat)
  /-- There were no more pictures. -/
  | finished
  deriving DecidableEq

/-- Starts the sender, with a camera that gives some pictures or without one. -/
def start : Option (List Post) → Ending × List Event
  | none => (.refused 1, [.print "Install mss with: pip install mss"])
  | some posts => (.finished, run posts)

end Deskhand.Capture
