import Deskhand.Broker.Message
import Deskhand.Memory.Context
import Deskhand.Model.Chat
import Deskhand.Search.Find

/-!
# The assistant's desk

What the assistant knows and whom it deals with: its settings, the memory of conversations, the script
sent last, the language model, the web and the message broker. Everything it sends or asks is kept in
order, so that a caller can see it.
-/

namespace Deskhand.Assistant

/-- A recording handed to the transcriber. -/
structure Recording where
  filename : Option Text
  data : List UInt8

/-- The assistant's desk. -/
structure Desk where
  settings : Settings
  clock : Clock
  web : Search.Web
  memory : Memory := []
  /-- The script sent last, in normal form. -/
  lastCommand : Option Text := none
  /-- Whether the broker takes messages. -/
  brokerUp : Bool := true
  /-- What will come of the next questions to the model. -/
  outcomes : List Model.Outcome := []
  /-- What comes of further questions. -/
  otherwise : Model.Outcome
  sent : List Broker.Message := []
  asked : List Model.Question := []
  requested : List Search.Request := []
  recorded : List Recording := []
  /-- The last picture of each user's screen. -/
  pictures : Table (List UInt8) := []

/-- Why the assistant cannot go on. -/
inductive Fault where
  | misuse (m : Json.Misuse)
  | search (f : Search.Fault)
  | notJson (e : Json.ReadError)
  /-- A service failed. -/
  | service (message : Text)

/-- The family of a fault. -/
def Fault.family : Fault → Family
  | .misuse m => m.family
  | .search f => f.family
  | .notJson _ => .value
  | .service _ => .service

/-- The message for a fault. -/
def Fault.message : Fault → Text
  | .misuse m => m.message
  | .search f => f.message
  | .notJson e => e.message
  | .service message => message

/-- Work at the desk. -/
abbrev Service (α : Type) := EStateM Fault Desk α

namespace Service

variable {α : Type}

/-- Goes on with a result, or fails. -/
def ofExcept {ε : Type} (f : ε → Fault) : Except ε α → Service α
  | .ok a => pure a
  | .error e => throw (f e)

/-- Goes on with a value that was used, or fails. -/
def ofUse (use : Except Json.Misuse α) : Service α := ofExcept .misuse use

/-- Asks the model. -/
def pose (q : Model.Question) : Service Model.Outcome := do
  let d ← get
  set { d with asked := d.asked ++ [q], outcomes := d.outcomes.tail }
  pure (d.outcomes.headD d.otherwise)

/-- Asks the model about a request in a context (`get_llm_response`). There always is an answer. -/
def ask (request context : Text) : Service Json := do
  let outcome ← pose (Model.question (← get).settings request context)
  pure outcome.answer

/-- Searches the web (`perform_search`). -/
def search [Soup] (query : Json) : Service Text := do
  let d ← get
  let (result, requests) := Search.run d.web d.clock query
  set { d with requested := d.requested ++ requests }
  ofExcept .search result

/-- Publishes a script, and tells whether it was (`publish_ducky_script_to_mqtt`). -/
def publishScript (request : Json) : Service Bool := do
  let d ← get
  match Broker.accept? d.settings d.lastCommand request with
  | none => pure false
  | some (script, message) =>
    if d.brokerUp then
      set { d with sent := d.sent ++ [message], lastCommand := some script }
      pure true
    else pure false

/-- Publishes a message for appliances, and tells whether it was
(`publish_appliance_command_to_mqtt`). -/
def publishAppliances (request : Json) : Service Bool := do
  let d ← get
  if d.brokerUp then
    set { d with sent := d.sent ++ [Broker.applianceMessage d.settings request] }
    pure true
  else pure false

/-- Forgets the script sent last (`reset_last_command`). -/
def resetLast : Service Unit := modify fun d ↦ { d with lastCommand := none }

/-- Remembers an exchange of a user (`update_conversation_summary`). -/
def remember (user request action : Text) (response output : Json) : Service Unit := do
  modify fun d ↦ { d with memory := d.memory.openFor user }
  let e ← ofUse (Exchange.make request action response output)
  modify fun d ↦ { d with memory := d.memory.add user e }

/-- The context of a user's next request. -/
def context (user : Text) : Service Text := do
  let d ← get
  ofUse (d.memory.context user)

end Service

end Deskhand.Assistant
