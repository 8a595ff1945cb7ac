import Deskhand.Failure
import Deskhand.Number.Reading
import Deskhand.Table

/-!
# Settings

The assistant is set up by named values. Most of them may be missing; the key of the language model
has to be there, and so has the port of the message broker.
-/

namespace Deskhand

/-- A channel of the message broker, and who may write to it. -/
structure Channel where
  topic : Option Text := none
  user : Option Text := none
  password : Option Text := none
  deriving DecidableEq

/-- The settings of the assistant. -/
structure Settings where
  modelKey : Text
  model : Text := "meta-llama/llama-4-scout-17b-16e-instruct"
  temperature : Binary64 := Number.ofDecimal false 7 (-1)
  maxTokens : Int := 1024
  /-- Where conversations could be stored, if that is set. -/
  database : Option Text := none
  searchUrl : Option Text := none
  brokerHost : Option Text := none
  brokerPort : Int
  scripts : Channel := {}
  linux : Channel := {}
  appliances : Channel := {}
  laptopPassword : Option Text := none

namespace Settings

/-- Why settings are refused. -/
inductive Fault where
  | noModelKey
  | noPort
  | notNumber (error : Number.ReadError)
  deriving DecidableEq

/-- The family of a fault. -/
def Fault.family : Fault → Family
  | .noPort => .type
  | _ => .value

/-- The message for a fault. -/
def Fault.message : Fault → Text
  | .noModelKey => "GROQ_API_KEY environment variable not set."
  | .noPort =>
    "int() argument must be a string, a bytes-like object or a real number, not 'NoneType'"
  | .notNumber error => error.message

/-- A channel whose settings begin with a given word. -/
def channel (env : Table Text) (start : String) : Channel where
  topic := env.get? (start.toList ++ "_TOPIC".toList)
  user := env.get? (start.toList ++ "_USER".toList)
  password := env.get? (start.toList ++ "_PASS".toList)

/-- A number that is read if it is set. -/
def number {α : Type} (read : Text → Except Number.ReadError α) (otherwise : α) :
    Option Text → Except Fault α
  | none => .ok otherwise
  | some t => (read t).mapError .notNumber

/-- The settings that named values give. -/
def ofEnv (env : Table Text) : Except Fault Settings := do
  let modelKey := (env.get? "GROQ_API_KEY").getD []
  if modelKey.isEmpty then .error .noModelKey
  let standard : Settings := { modelKey, brokerPort := 0 }
  let temperature ← number Number.readDecimal standard.temperature (env.get? "LLM_TEMPERATURE")
  let maxTokens ← number Number.readInt standard.maxTokens (env.get? "LLM_MAX_TOKENS")
  let some port := env.get? "MQTT_PORT" | .error .noPort
  let brokerPort ← (Number.readInt port).mapError .notNumber
  .ok { modelKey
        model := (env.get? "LLM_MODEL").getD standard.model
        temperature
        maxTokens
        database := env.get? "MONGO_URI"
        searchUrl := env.get? "SEARXNG_URL"
        brokerHost := env.get? "MQTT_BROKER"
        brokerPort
        scripts := channel env "MQTT_DUCKY"
        linux := channel env "MQTT_LINUX"
        appliances := channel env "MQTT_APPLIANCE"
        laptopPassword := env.get? "LAPTOP_CONTROL_PASS" }

end Settings

end Deskhand
