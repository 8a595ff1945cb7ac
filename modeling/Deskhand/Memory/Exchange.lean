import Deskhand.Json.Access
import Deskhand.Request.Intent
import Deskhand.Request.Requirements

/-!
# Exchanges

What the assistant remembers of a request and its answer.
-/

namespace Deskhand

/-- A request and what was done about it. -/
structure Exchange where
  said : Text
  intent : Intent
  did : Text
  responded : Json
  corrections : Request.Corrections
  requirements : Request.Requirements
  /-- The script of the answer; an empty text if it had none. -/
  script : Json

namespace Exchange

/-- How much of an answer is remembered. -/
def responseLength : Nat := 150

/-- The remembered part of an answer. -/
def shorten (response : Json) : Except Json.Misuse Json := do
  if (← response.length) > responseLength then
    match ← response.firstPart responseLength with
    | .text t => .ok (.text (t ++ "...".toList))
    | _ => .error .listAndText
  else .ok response

/-- The script in an answer. -/
def scriptOf (output : Json) : Except Json.Misuse Json :=
  if output.truth then (output.get? "output_ducky_script").map (·.getD (.text []))
  else .ok (.text [])

/-- The exchange of a request, an action and an answer (`update_conversation_summary`). -/
def make (request action : Text) (response output : Json) : Except Json.Misuse Exchange := do
  let responded ← shorten response
  let script ← scriptOf output
  .ok { said := request
        intent := .ofRequest request
        did := action
        responded
        corrections := Request.corrections request
        requirements := Request.requirements request
        script }

/-- An exchange as an object. -/
def toJson (e : Exchange) : Json :=
  .object [("user_said", .text e.said), ("user_intent", .text e.intent.name),
    ("ai_did", .text e.did), ("ai_responded", e.responded),
    ("corrections_feedback", e.corrections.toJson),
    ("specific_requirements", e.requirements.toJson), ("ducky_script_generated", e.script)]

/-- The text of a field that counts as given, if an object has one. -/
def givenText? (key : Text) (v : Json) : Except Json.Misuse (Option Text) := do
  let field ← v.get key
  .ok (if field.truth then some field.display else none)

/-- The object in a field that counts as given; an empty one if there is none. -/
def givenObject (key : Text) (v : Json) : Except Json.Misuse Json := do
  let field ← v.get key
  .ok (if field.truth then field else .object [])

/-- What a correction said. -/
def saidIn (v : Json) : Except Json.Misuse Text := do
  match ← v.get? "user_said" with
  | none => .error (.noField "user_said")
  | some (.text t) => .ok t
  | some v => (v.firstPart 0).map fun _ ↦ v.display

/-- Reads an exchange from an object that may lack fields. -/
def ofJson (v : Json) : Except Json.Misuse Exchange := do
  let corrections ← givenObject "corrections_feedback" v
  let wanted ← givenText? "delay_requirement" corrections
  let requirements ← givenObject "specific_requirements" v
  let delay ← givenText? "preferred_delay" requirements
  let isCorrection := (← v.get "user_intent").isText Intent.correction.name
  let said ← if isCorrection then saidIn v else .ok []
  let application ← givenText? "target_application" requirements
  .ok { said
        intent := if isCorrection then .correction else .conversation
        did := []
        responded := .null
        corrections := { delay := wanted }
        requirements := { delay, application }
        script := .text [] }

end Exchange

end Deskhand
