import Deskhand.Memory.Preferences

/-!
# The memory of conversations

For each user the last five exchanges are remembered. The context given to the language model tells
them in words, after the preferences they show.
-/

namespace Deskhand

/-- The remembered exchanges of each user. -/
abbrev Memory := Table (List Exchange)

namespace Memory

/-- How many exchanges of a user are remembered. -/
def window : Nat := 5

/-- The exchanges of a user. -/
def exchanges (m : Memory) (user : Text) : List Exchange := (m.get? user).getD []

/-- The memory with a place for a user. -/
def openFor (m : Memory) (user : Text) : Memory := if m.hasKey user then m else m.put user []

/-- The last exchanges of a list. -/
def recent (l : List Exchange) : List Exchange := l.drop (l.length - window)

/-- The memory with one more exchange of a user. -/
def add (m : Memory) (user : Text) (e : Exchange) : Memory :=
  m.put user (recent (m.exchanges user ++ [e]))

/-- The memory after a user asked to forget, if there is one of that user. -/
def forget (m : Memory) (user : Text) : Memory := if m.hasKey user then m.put user [] else m

end Memory

namespace Exchange

/-- The lines of a script that name a delay. -/
def delayLines (script : Json) : Except Json.Misuse (List Text) := do
  if !script.truth then .ok []
  else if ← script.includes "DELAY" then
    match script with
    | .text t => .ok ((Text.splitOn t "\n").filter (Text.has · "DELAY"))
    | v => .error (.noMember v.kindName "split")
  else .ok []

/-- A label and a text, if there is one that is not empty. -/
def labelled (label : String) (t : Option Text) (tail : String := "") : Text :=
  match t with
  | some (c :: rest) => label.toList ++ c :: rest ++ tail.toList
  | _ => []

/-- An exchange in words, under its number. -/
def summary (number : Nat) (e : Exchange) : Except Json.Misuse Text := do
  let delays ← delayLines e.script
  .ok ("Conv ".toList ++ Text.ofNat number ++ ": '".toList ++ e.said ++ "'".toList
    ++ (if e.intent = .correction then " [CORRECTION]".toList else [])
    ++ labelled " → Wanted: " e.corrections.delay
    ++ labelled " → DELAY " e.requirements.delay " ms"
    ++ labelled " → App: " e.requirements.application
    ++ " → I did: ".toList ++ e.did
    ++ (if delays.isEmpty then []
      else " → Generated delays: ".toList ++ Text.join ", " (delays.take 2)))

/-- Exchanges in words, numbered from `number` on. -/
def summaries (number : Nat) : List Exchange → Except Json.Misuse (List Text)
  | [] => .ok []
  | e :: rest => do
    let first ← summary number e
    let others ← summaries (number + 1) rest
    .ok (first :: others)

end Exchange

namespace Memory

/-- The context of a user's next request (`get_conversation_context`). -/
def context (m : Memory) (user : Text) : Except Json.Misuse Text := do
  match m.exchanges user with
  | [] => .ok "No previous conversations."
  | exchanges =>
    let preferences := (Preferences.ofExchanges exchanges).summary?.toList
    let summaries ← Exchange.summaries 1 exchanges
    .ok (Text.join " | " (preferences ++ summaries))

end Memory

end Deskhand
