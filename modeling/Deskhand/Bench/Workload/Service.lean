import Deskhand.Assistant.Serve
import Deskhand.Bench.Workload.Script
import Deskhand.Html.Select
import Deskhand.Json.Writer
import Deskhand.Workflow.Step

/-!
# Workloads of the assistant

Work for the parts of the assistant that deal with the model, the web and the broker, as large as
asked for.
-/

namespace Deskhand.Bench.Workload

/-- A script that opens an application. -/
def openingScript : Text := "GUI r\nDELAY 300\nSTRING notepad\nENTER"

/-- A full reply of the model. -/
def fullReply : Text :=
  (Json.object [("output_natural_response", .text "Opening notepad."),
    ("output_ducky_script", .text openingScript), ("output_appliances_response", .object []),
    ("output_search_required", .int 0), ("output_search_query", .text ""),
    ("previous_relation", .int 1), ("new_previous_convo", .text "")]).write

/-- A reply with a script alone. -/
def shortReply : Text := (Json.object [("output_ducky_script", .text "GUI r")]).write

/-- A text in a block. -/
def inBlock (mark : String) (t : Text) : Text :=
  "```".toList ++ mark.toList ++ '\n' :: t ++ "\n```".toList

/-- Replies of the model in all forms: by themselves, in a block, among words, and with no object
in them. -/
def replies : List Text := [
  fullReply, inBlock "json" fullReply, inBlock "" fullReply, "Sure: ".toList ++ fullReply,
  fullReply ++ "\nDone.".toList,
  "I cannot do that.", "Hello!", "",
  shortReply, inBlock "json" shortReply, inBlock "" shortReply, "Sure: ".toList ++ shortReply]

/-- What is kept of an answer: the beginning of its script, and how it relates to what came
before. -/
structure Digest where
  script : Text
  relation : Json

/-- What is kept of an answer. -/
def Digest.ofAnswer (answer : Json) : Digest where
  script := (((answer.field? "output_ducky_script").bind Json.text?).getD []).take 20
  relation := (answer.field? "previous_relation").getD .null

/-- Reads `n` replies in turn. -/
def readReplies (n : Int) : Except Model.ReplyFault (List Digest) :=
  (firstInTurn replies [] n.toNat).mapM fun t ↦ (Model.answerIn (some t)).map Digest.ofAnswer

/-- Asks the model `n` times, and then for a plan and about a picture. The beginnings of the last
two replies are kept. -/
def askModel (n : Int) : Except Model.Fault (List Digest × List Text) := do
  let outcome : Model.Outcome := .content (some fullReply)
  let others ← (List.replicate 2 outcome).mapM fun o ↦ o.reply
  return (List.replicate n.toNat (.ofAnswer outcome.answer), others.map fun t ↦ (t.getD []).take 20)

/-- Questions for a search without a network. -/
def offlineQueries : List Text := [
  "weather in Amritsar", "weather in New Delhi", "weather in Mumbai", "what time is it",
  "history of the roman empire", "python programming tutorial"]

/-- The beginnings of the answers to `n` questions without a network, asked in turn. -/
def searchOffline (c : Clock) (n : Int) : Except Search.Fault (List Text) :=
  (firstInTurn offlineQueries [] n.toNat).mapM fun query ↦
    (·.take 40) <$> Search.offline c (.text query)

/-- A page with an answer. -/
def answerPage : Text :=
  ("<div id=\"answers\"><div class=\"answer\">Ans"
    ++ "<a class=\"answer-url\">http://a.example</a></div></div>").toList

/-- A page with one result. -/
def resultPage : Text :=
  "<article class=\"result\"><h3><a href=\"http://r.example\">Result</a></h3></article>"

/-- A page with a suggestion. -/
def suggestionPage : Text :=
  "<div id=\"suggestions\"><input class=\"suggestion\" value=\"weather today\"></div>"

/-- A web whose search gives a page. -/
def webOf (search : Search.Response) : Search.Web where
  searchUrl := some "http://search.example".toList
  search := search
  pages := [("http://r.example", .answer 200 "<main>Content</main>")]

/-- Webs on which a search ends in all ways. -/
def webs : List Search.Web := [
  webOf (.answer 200 answerPage), webOf (.answer 200 (answerPage ++ resultPage)),
  { webOf (.answer 200 (answerPage ++ resultPage)) with pages := [] },
  webOf (.answer 200 suggestionPage), webOf (.answer 200 []), webOf (.answer 500 []), webOf .failed]

/-- Questions for a search whose network fails. -/
def failingQueries : List Text := [
  "weather in Amritsar", "what time is it", "python tips", "history of the roman empire",
  "weather in Chennai"]

/-- The beginnings of the answers to one question on all webs, and to `n` questions in turn on a
web that fails. -/
def searchAll (c : Clock) (n : Int) : Except Search.Fault (List Text) := do
  let first ← webs.mapM fun web ↦ (Search.run web c (.text "weather in Amritsar")).1
  let rest ← (firstInTurn failingQueries [] n.toNat).mapM fun query ↦
    (Search.run (webOf .failed) c (.text query)).1
  return (first ++ rest).map (·.take 30)

/-- The password of a workload's laptop. -/
def password : Text := "bench-pass"

/-- The desk of a workload. -/
def desk (c : Clock) : Assistant.Desk where
  settings := { modelKey := "key", brokerPort := 1883, laptopPassword := some password }
  clock := c
  web := webOf .failed
  otherwise := .content (some fullReply)

/-- A request to run a script. -/
def scriptRequest (script password : Text) : Json :=
  .object [("script", .text script), ("password", .text password)]

/-- Scripts that are not in normal form. -/
def looseScripts : List Text := [
  "DELAY300\nSTRING notepad.exe", "DELAY500\nSTRING cmd.exe", "DELAY2000\nSTRING chrome.exe"]

/-- What comes of publishing. -/
structure PublishTally where
  accepted : Nat
  sent : Nat
  normal : List Text

/-- Publishes `n` scripts and a message for appliances, and brings some scripts into normal form. -/
def publish (c : Clock) (n : Int) : Except Assistant.Fault PublishTally :=
  let work : Assistant.Service PublishTally := do
    let accepted ← (List.range n.toNat).filterM fun i ↦
      Assistant.Service.publishScript
        (scriptRequest ("STRING command ".toList ++ Text.ofNat i) password)
    let _ ← Assistant.Service.publishAppliances (.object [("lamp", .text "on")])
    pure ⟨accepted.length, (← get).sent.length, looseScripts.map Broker.normalise⟩
  match work (desk c) with
  | .ok tally _ => .ok tally
  | .error fault _ => .error fault

/-- What work at the desk gives back. -/
inductive Returned where
  | response (status : Nat)
  | value (v : Json)
  | nothing
  | step (s : Workflow.Step)

/-- What an answer gives back. -/
def Returned.ofAnswer : Assistant.Answer → Returned
  | .response status _ => .response status
  | .plain v => .value v

/-- What work without a result gives back. -/
def Returned.ofWork (work : Assistant.Service Unit) : Assistant.Service Returned := do
  work
  pure .nothing

/-- The user of a workload. -/
def user : Text := "bench_user"

/-- A call that executes a command. -/
def execute (fields : List (Text × Json)) : Assistant.Call :=
  .executeCommand (Json.object fields).write

/-- The calls of one round. -/
def roundCalls : List Assistant.Call := [
  .processAudio user ⟨some "a.wav".toList, .ok []⟩ (.ok (some "open notepad".toList)) [],
  .trySearch (.text "weather in Amritsar"), .conversationHistory user, .resetConversation user,
  execute [("appliance_controls", .object [("lamp", .text "on")])],
  .storePicture user (.ok [])]

/-- The calls after the rounds. -/
def closingCalls : List Assistant.Call := [
  execute [("ducky_script", .text openingScript), ("password", .text password)],
  .resetLastCommand, .tryScript, .demonstrate user, execute [],
  execute [("ducky_script", .text openingScript), ("password", .text "wrong")],
  .executeCommand "no command", .welcome, .resetConversation user]

/-- What `n` rounds of calls give back, and the work after them. -/
def endpoints (c : Clock) (n : Int) : Except Assistant.Fault (List Returned) :=
  let calls := (List.replicate n.toNat roundCalls).flatten ++ closingCalls
  let work : Assistant.Service (List Returned) := do
    let answers ← calls.mapM fun call ↦ Returned.ofAnswer <$> Assistant.serve call
    let remembered ← Returned.ofWork
      (Assistant.Service.remember user "open notepad" "opened it" (.text "Done.") .null)
    let reset ← Returned.ofWork Assistant.Service.resetLast
    pure (answers ++ [remembered, reset, .step { action := .text "open_app" }])
  match work (desk c) with
  | .ok returned _ => .ok returned
  | .error fault _ => .error fault

end Deskhand.Bench.Workload
