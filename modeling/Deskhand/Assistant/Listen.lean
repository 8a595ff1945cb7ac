import Deskhand.Assistant.Desk

/-!
# Answering a spoken request

A recording is transcribed and put to the model together with what is remembered. If the model wants
to know something, a search is made and the model asked again with its result.
-/

namespace Deskhand.Assistant

open Service

/-- An uploaded recording. Reading it may fail. -/
structure Upload where
  filename : Option Text
  data : Except Text (List UInt8)

/-- Reads an upload. -/
def Upload.read (u : Upload) : Service (List UInt8) := ofExcept .service u.data

/-- The answer when nothing was said. -/
def nothingHeard : Json := Reply.answer "I didn't hear anything. Please try again." [] 0

/-- The answer when something went wrong. -/
def regret (message : Text) : Json :=
  Reply.answer ("I'm sorry, but I encountered an error: ".toList ++ message
    ++ ". Please try again.".toList) [] 0

/-- The request with the result of a search. -/
def searchPrompt (request : Text) (query : Json) (result : Text) : Text :=
  ["Original user query: ".toList, request, "\n\nBased on search for '".toList, query.display,
    "', here are the results:\n\n".toList, result,
    "\n\nPlease provide a concise, helpful response addressing the user's query ".toList,
    "using this information. Focus on the most relevant facts and don't mention that ".toList,
    "this came from a search unless necessary.".toList].flatten

/-- The query that an answer wants to be searched for, if it does. -/
def wantedQuery? (answer : Json) : Except Json.Misuse (Option Json) := do
  let required ← answer.get "output_search_required"
  let query ← answer.get "output_search_query"
  .ok (if required.isOne && query.truth then some query else none)

/-- The answer to a request, after a search if one is wanted. -/
def answerRequest [Soup] (request context : Text) : Service Json := do
  let answer ← ask request context
  match ← ofUse (wantedQuery? answer) with
  | none => pure answer
  | some query =>
    let result ← search query
    ask (searchPrompt request query result) context

/-- An answer with the request it belongs to. -/
def withRequest (request : Text) : Json → Except Json.Misuse Json
  | .object fields => .ok (.object (Table.put fields "transcribed_text" (.text request)))
  | v => .error (.noMember v.kindName "get")

/-- The answer to a request that was heard (`process_audio_input`). -/
def respond [Soup] (request context : Text) : Service Json := do
  let answer ← answerRequest request context
  ofUse (withRequest request answer)

/-- Transcribes an upload (`transcribe_audio`). -/
def transcribe (u : Upload) (transcript : Except Text (Option Text)) : Service Text := do
  let data ← u.read
  modify fun d ↦ { d with recorded := d.recorded ++ [⟨u.filename, data⟩] }
  let heard ← ofExcept .service transcript
  pure (heard.getD [])

/-- What the assistant did, as an answer tells. -/
def actionOf (answer : Json) : Except Json.Misuse Text := do
  let script ← answer.get "output_ducky_script"
  let appliances ← answer.get "output_appliances_response"
  let required ← answer.get "output_search_required"
  if script.truth then
    let part ← script.firstPart 50
    .ok ("executed computer command: ".toList ++ part.display ++ "...".toList)
  else if appliances.truth then .ok ("controlled appliances: ".toList ++ appliances.display)
  else if required.truth then
    let query ← answer.get? "output_search_query"
    .ok ("searched for: ".toList ++ (query.getD (.text "information")).display)
  else .ok "provided information"

/-- Answers an uploaded request and remembers it. -/
def listen [Soup] (user : Text) (u : Upload) (transcript : Except Text (Option Text)) :
    Service Json := do
  let context ← context user
  let request ← transcribe u transcript
  if request.isEmpty then pure nothingHeard
  else
    let answer ← respond request context
    let action ← ofUse (actionOf answer)
    let response := (← ofUse (answer.get? "output_natural_response")).getD (.text [])
    remember user request action response answer
    ofUse answer.finite

end Deskhand.Assistant
