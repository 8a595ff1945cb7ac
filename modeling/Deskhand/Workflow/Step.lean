import Deskhand.Failure
import Deskhand.Json.Equal

/-!
# Steps of a workflow

A step names what is to be done; all else about it has a usual value.
-/

namespace Deskhand.Workflow

/-- A step of a workflow (`WorkflowStep`). -/
structure Step where
  action : Json
  command : Json := .null
  timeout : Json := .int 3
  platform : Json := .text "windows"
  verification : Json := .text ""

namespace Step

/-- Why fields make no step. -/
inductive Fault where
  | unknownField (name : Text)
  | noAction
  deriving DecidableEq

/-- The family of a fault. -/
def Fault.family (_ : Fault) : Family := .type

/-- The message for a fault. -/
def Fault.message : Fault → Text
  | .unknownField name =>
    "WorkflowStep.__init__() got an unexpected keyword argument ".toList ++ Text.between "'" name
  | .noAction => "WorkflowStep.__init__() missing 1 required positional argument: 'action_type'"

/-- The fields of a step with their names, in order. -/
def fields (s : Step) : Table Json :=
  [("action_type", s.action), ("command", s.command), ("timeout", s.timeout),
    ("platform", s.platform), ("verification_prompt", s.verification)]

/-- The step that fields make. -/
def ofFields (given : Table Json) : Except Fault Step :=
  let usual : Step := { action := .null }
  match given.keys.find? (!usual.fields.hasKey ·) with
  | some name => .error (.unknownField name)
  | none =>
    match given.get? "action_type" with
    | none => .error .noAction
    | some action =>
      .ok { action
            command := (given.get? "command").getD usual.command
            timeout := (given.get? "timeout").getD usual.timeout
            platform := (given.get? "platform").getD usual.platform
            verification := (given.get? "verification_prompt").getD usual.verification }

/-- A step in words. -/
def shown (s : Step) : Text :=
  "WorkflowStep(".toList
    ++ Text.join ", " (s.fields.map fun (name, v) ↦ name ++ '=' :: v.shown) ++ [')']

/-- Whether two steps are equal in every field. -/
def equals (s t : Step) : Bool := (Json.object s.fields).equals (.object t.fields)

end Step

end Deskhand.Workflow
