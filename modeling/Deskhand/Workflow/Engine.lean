import Deskhand.Model.Chat

/-!
# Running a workflow

A workflow takes a picture of the screen, asks the model for a plan and carries it out step by step
until one fails. Each character of the plan is a step.
-/

namespace Deskhand.Workflow

/-- What a workflow has at hand. -/
structure Equipment where
  planner : Bool
  camera : Bool
  /-- How each step turns out, if there is anything to carry out steps with. -/
  results : Option (List Bool)

/-- What a workflow did. -/
inductive Act where
  | capture
  | attempt (step : Char)
  deriving DecidableEq

/-- How a workflow ends. -/
inductive Ending where
  | completed
  | failed (step : Char)
  deriving DecidableEq

/-- Why a workflow breaks off. -/
inductive Fault where
  | noPlanner
  | noCamera
  | model (fault : Model.Fault)
  | noPlan
  /-- There is nothing to carry out steps with. -/
  | noHands
  /-- It is not said how a step turns out. -/
  | noResult
  deriving DecidableEq

/-- The family of a fault. -/
def Fault.family : Fault → Family
  | .noPlanner | .noCamera => .name
  | .model fault => fault.family
  | .noPlan => .type
  | .noHands => .member
  | .noResult => .service

/-- The message for a fault. -/
def Fault.message : Fault → Text
  | .noPlanner => "name 'MultiLLMManager' is not defined"
  | .noCamera => "name 'ScreenshotService' is not defined"
  | .model fault => fault.message
  | .noPlan => "'NoneType' object is not iterable"
  | .noHands => "'VisualWorkflowEngine' object has no attribute 'execute_step_with_feedback'"
  | .noResult => "coroutine raised StopIteration"

/-- Carries out steps until one fails, and lists those tried. -/
def carryOut : List Bool → Text → Except Fault Ending × List Act
  | _, [] => (.ok .completed, [])
  | [], step :: _ => (.error .noResult, [.attempt step])
  | false :: _, step :: _ => (.ok (.failed step), [.attempt step])
  | true :: results, step :: plan =>
    let (ending, acts) := carryOut results plan
    (ending, .attempt step :: acts)

/-- Carries out a plan with what there is. -/
def follow : Option (List Bool) → Text → Except Fault Ending × List Act
  | some results, plan => carryOut results plan
  | none, [] => (.ok .completed, [])
  | none, _ => (.error .noHands, [])

/-- The plan in a reply. -/
def planOf (outcome : Model.Outcome) : Except Fault Text :=
  match outcome.reply with
  | .error fault => .error (.model fault)
  | .ok none => .error .noPlan
  | .ok (some plan) => .ok plan

/-- Runs a workflow, given what comes of the question for a plan (`execute_visual_workflow`). -/
def run (e : Equipment) (outcome : Model.Outcome) : Except Fault Ending × List Act :=
  if !e.planner then (.error .noPlanner, [])
  else if !e.camera then (.error .noCamera, [])
  else
    match planOf outcome with
    | .error fault => (.error fault, [.capture])
    | .ok plan =>
      let (ending, acts) := follow e.results plan
      (ending, .capture :: acts)

end Deskhand.Workflow
