import Deskhand.Bench.Workload.Service
import Deskhand.Request.Intent

/-!
# Workloads of the memory

Work for the memory of conversations, as large as asked for: exchanges are remembered in turn, and
then what is known of the user is looked up.
-/

namespace Deskhand.Bench.Workload

/-- Exchanges: the assistant's samples, then a question, another command and some small talk. -/
def exchanges : List (String × String × String × String) :=
  Assistant.samples ++ [
    ("what is the weather in Amritsar", "searched for: weather in Amritsar", "It is sunny.", ""),
    ("open chrome", "executed computer command: GUI r", "Opening chrome.", "GUI r"),
    ("thank you", "provided information", "You are welcome.", "")]

/-- An answer with a script, a message for appliances and a field that is no command. -/
def mixedAnswer : Json :=
  .object [("ducky_script", .text "GUI r"), ("appliance_controls", .object [("lamp", .text "on")]),
    ("other", .text "")]

/-- What comes of a conversation. -/
structure ConversationTally where
  intents : List Intent
  /-- The length of the context of the next request. -/
  contextLength : Nat
  /-- The context of a user without a conversation. -/
  emptyContext : Text
  /-- The names of what is known about the user, in order. -/
  known : List Text
  commands : Json

/-- What is known about a user, who has to be in the memory. -/
def knownOf (m : Memory) (user : Text) : Except Json.Misuse (List Text) :=
  match m.get? user with
  | none => .error (.noField user)
  | some l =>
    match (Preferences.ofExchanges l).toJson with
    | .object fields => .ok ((Table.keys fields).mergeSort Text.notAfter)
    | _ => .ok []

/-- Remembers `n` exchanges in turn and looks up what is known of the user. -/
def conversation (c : Clock) (n : Int) : Except Assistant.Fault ConversationTally :=
  let turns := firstInTurn exchanges ("", "", "", "") n.toNat
  let work : Assistant.Service ConversationTally := do
    turns.forM fun (said, did, answered, script) ↦
      Assistant.Service.remember user said did (.text answered)
        (.object [("output_ducky_script", .text script)])
    let context ← Assistant.Service.context user
    let emptyContext ← Assistant.Service.context "nobody"
    let known ← Assistant.Service.ofUse (knownOf (← get).memory user)
    let commands ← Assistant.Service.ofUse (Broker.commandsOf mixedAnswer)
    pure {
      intents := turns.map fun (said, _) ↦ Intent.ofRequest said
      contextLength := context.length
      emptyContext, known, commands }
  match work (desk c) with
  | .ok tally _ => .ok tally
  | .error fault _ => .error fault

end Deskhand.Bench.Workload
