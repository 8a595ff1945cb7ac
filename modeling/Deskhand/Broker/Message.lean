import Deskhand.Broker.Normal
import Deskhand.Json.Access
import Deskhand.Json.Writer
import Deskhand.Settings

/-!
# Messages to the broker

What is published for a script and for appliances. A script is only sent under the laptop's password,
and not twice in a row unless a repetition is asked for.
-/

namespace Deskhand.Broker

/-- A message to be published. -/
structure Message where
  topic : Option Text
  payload : Text
  host : Option Text
  port : Int
  /-- The name and the password to publish under. -/
  login : Option (Option Text × Option Text)
  deriving DecidableEq

/-- The login of the script channel, if both parts are set and not empty. -/
def scriptLogin (channel : Channel) : Option (Option Text × Option Text) :=
  match channel.user, channel.password with
  | some user, some password =>
    if user.isEmpty || password.isEmpty then none else some (some user, some password)
  | _, _ => none

/-- Whether a request carries the laptop's password, which is not empty. -/
def authorised (s : Settings) (request : Json) : Bool :=
  match request.field? "password", s.laptopPassword with
  | some (.text given), some password => !given.isEmpty && given == password
  | _, _ => false

/-- The script of a request in normal form, if it has one that is not empty. -/
def scriptOf? (request : Json) : Option Text :=
  match request.field? "script" with
  | some (.text script) => if script.isEmpty then none else some (normalise script)
  | _ => none

/-- Whether a request asks for a repetition. -/
def repeats (request : Json) : Bool := ((request.field? "repeat").map Json.truth).getD false

/-- The message for a request with its script replaced. -/
def scriptMessage (s : Settings) (request : Json) (script : Text) : Message where
  topic := s.scripts.topic
  payload :=
    match request with
    | .object fields => (Json.object (Table.put fields "script" (.text script))).write
    | v => v.write
  host := s.brokerHost
  port := s.brokerPort
  login := scriptLogin s.scripts

/-- The script and the message that a request leads to, `last` being the script sent last
(`publish_ducky_script_to_mqtt`). -/
def accept? (s : Settings) (last : Option Text) (request : Json) : Option (Text × Message) :=
  if authorised s request then
    match scriptOf? request with
    | some script =>
      if !repeats request && last == some script then none
      else some (script, scriptMessage s request script)
    | none => none
  else none

/-- The message for appliances (`publish_appliance_command_to_mqtt`). -/
def applianceMessage (s : Settings) (request : Json) : Message where
  topic := s.appliances.topic
  payload := request.write
  host := s.brokerHost
  port := s.brokerPort
  login := some (s.appliances.user, s.appliances.password)

/-- What is worth sending of an answer: its script, and its appliances if they are an object. -/
def commandsOf (answer : Json) : Except Json.Misuse Json := do
  let script ← answer.get "ducky_script"
  let appliances ← answer.get "appliance_controls"
  let isObject :=
    match appliances with
    | .object fields => !fields.isEmpty
    | _ => false
  .ok (.object ((if script.truth then [("ducky_script".toList, script)] else [])
    ++ if isObject then [("appliance_controls".toList, appliances)] else []))

end Deskhand.Broker
