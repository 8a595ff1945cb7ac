import Deskhand.Json.Basic
import Deskhand.Request.Delay
import Deskhand.Text.Case

/-!
# Corrections in a request

What a request says about how an earlier one should have been done.
-/

namespace Deskhand.Request

/-- The corrections a request makes. -/
structure Corrections where
  /-- The delay command that was wanted. -/
  delay : Option Text := none
  /-- The application that was wanted. -/
  application : Option Text := none
  /-- The whole request, if it is about the order of things. -/
  sequence : Option Text := none
  deriving DecidableEq

/-- The corrections a request makes (`extract_corrections_and_feedback`). -/
def corrections (request : Text) : Corrections :=
  let t := Text.lower request
  let has (word : String) : Bool := Text.has t word
  { delay := (correctedDelays t).getLast?.map ("DELAY ".toList ++ ·)
    application :=
      if has "notepad" && (has "forgot" || has "should") then some "notepad" else none
    sequence := if has "after opening" || has "then" || has "before" then some request else none }

/-- A field with a text, if there is one. -/
def textField (key : String) : Option Text → List (Text × Json)
  | some t => [(key, .text t)]
  | none => []

/-- The corrections as an object with a field for each. -/
def Corrections.toJson (c : Corrections) : Json :=
  .object (textField "delay_requirement" c.delay ++ textField "app_correction" c.application
    ++ textField "sequence_requirement" c.sequence)

end Deskhand.Request
