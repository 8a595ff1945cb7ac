import Deskhand.Json.Access
import Deskhand.Json.Equal
import Deskhand.Json.Reader
import Deskhand.Text.Blank
import Deskhand.Text.Lines

/-!
# Answers of helper programs

A round of measurement has some of its work done by helper programs. The answer of such a program is
the last line it printed, an object. Whatever is wrong with the answer is a trouble, which is
reported and does not end the round.
-/

namespace Deskhand.Bench

/-- How a helper program ended. -/
inductive Child where
  | finished (code : Int) (out err : Text)
  /-- It could not be started. -/
  | failed (cause : Text)

/-- What is wrong with an answer. -/
inductive Trouble where
  | notJson (cause : Json.ReadError)
  | misuse (cause : Json.Misuse)
  | notNumber (cause : Number.ReadError)
  /-- A value of this kind stands for no number. -/
  | noNumber (kind : Text)
  | notStarted (cause : Text)
  deriving DecidableEq

namespace Trouble

/-- The name of a trouble's kind. -/
def name : Trouble → Text
  | .notJson (.flaw ..) => "JSONDecodeError"
  | .notJson (.number _) => "ValueError"
  | .misuse cause => if cause.family = .member then "AttributeError" else "TypeError"
  | .notNumber _ => "ValueError"
  | .noNumber _ => "TypeError"
  | .notStarted _ => "SubprocessError"

/-- A trouble in words. -/
def message : Trouble → Text
  | .notJson cause => cause.message
  | .misuse cause => cause.message
  | .notNumber cause => cause.message
  | .noNumber kind =>
    "float() argument must be a string or a real number, not ".toList ++ Text.between "'" kind
  | .notStarted cause => cause

/-- The line that reports a trouble with a helper program. -/
def report (helper : Text) (t : Trouble) : Text :=
  '[' :: helper ++ " runner: ".toList ++ t.name ++ ": ".toList ++ t.message ++ "]\n".toList

end Trouble

/-- The number that a value stands for. A text is read as a decimal number. -/
def toNumber (v : Json) : Except Trouble Binary64 :=
  match v, v.worth? with
  | .text t, _ => (Number.readDecimal t).mapError .notNumber
  | _, some (.whole n) => .ok (.ofInt n)
  | _, some (.binary x) => .ok x
  | v, none => .error (.noNumber v.kindName)

/-- The fields of an object that a field holds. A field that is missing or empty has none. -/
def objectAt (key : Text) (v : Json) : Except Trouble (List (Text × Json)) := do
  match ← (Json.get key v).mapError .misuse with
  | .object fields => .ok fields
  | w => if w.truth then .error (.misuse (.noMember w.kindName "items")) else .ok []

/-- The lines of a text that are not blank. -/
def fullLines (t : Text) : List Text := (Text.lines t).filter fun l ↦ !(Text.trimLeft l).isEmpty

/-- The answer a helper program printed, if it printed any. -/
def lastAnswer (out : Text) : Except Trouble (Option Json) :=
  match (fullLines out).getLast? with
  | none => .ok none
  | some line => (Json.read line).map some |>.mapError .notJson

end Deskhand.Bench
