import Deskhand.Assistant.Listen
import Deskhand.Json.Reader
import Deskhand.Text.Utf8

/-!
# What the assistant can be asked

Each call is answered; what goes wrong within a call is part of its answer.
-/

namespace Deskhand.Assistant

open Service

/-- An answer to a call: a value by itself, or one with a status. -/
inductive Answer where
  | plain (v : Json)
  | response (status : Nat) (body : Json)

/-- An object with texts as fields. -/
def notice (fields : List (String × String)) : Json :=
  .object (fields.map fun (k, v) ↦ (k.toList, .text v.toList))

/-- An answer that reports a problem. -/
def problem (status : Nat) (message : Text) : Answer :=
  .response status (.object [("status", .text "error"), ("message", .text message)])

/-- Work whose faults become an answer. -/
def guarded (onFault : Text → Answer) (work : Service Answer) : Service Answer := fun d ↦
  match work d with
  | .ok a d => .ok a d
  | .error f d => .ok (onFault f.message) d

/-- Answers a spoken request (`api_process_audio`). -/
def processAudio [Soup] (user : Text) (u : Upload) (transcript : Except Text (Option Text)) :
    Service Answer :=
  guarded (fun message ↦ .response 500 (regret message)) do
    pure (.response 200 (← listen user u transcript))

/-- Forgets a user's conversation (`reset_conversation`). -/
def resetConversation (user : Text) : Service Answer := do
  modify fun d ↦ { d with memory := d.memory.forget user }
  pure (.plain (notice [("status", "success"), ("message", "Conversation history cleared")]))

/-- Tries the search. -/
def trySearch [Soup] (query : Json) : Service Answer :=
  guarded (fun message ↦ .response 500 (.object [("error", .text message)])) do
    let result ← search query
    pure (.response 200 (.object [("query", query),
      ("result", .object [("status", .text "success"), ("results", .text result)])]))

/-- The message of a script that a call carries. -/
def scriptRequest (script : Json) (data : Json) : Except Json.Misuse Json := do
  let password ← data.get "password"
  let again ← data.get? "repeat"
  .ok (.object [("script", script), ("password", password), ("repeat", again.getD (.bool false))])

/-- Sends the command a call carries: its script, or else its appliances (`execute_command`). -/
def executeCommand (body : Text) : Service Answer :=
  guarded (problem 500) do
    let data ← ofExcept .notJson (Json.read body)
    let script ← ofUse (data.get "ducky_script")
    let appliances ← ofUse (data.get "appliance_controls")
    if script.truth || appliances.truth then
      let sent ← if script.truth then
          publishScript (← ofUse (scriptRequest script data))
        else publishAppliances (.object [("appliance_controls", appliances)])
      if sent then
        pure (.response 200 (notice [("status", "success"), ("message", "Command sent via MQTT")]))
      else pure (problem 500 "Failed to publish command to MQTT")
    else pure (problem 400 "No valid command found in payload")

/-- Allows the last command to be sent again (`reset_last_command_endpoint`). -/
def resetLastCommand : Service Answer := do
  resetLast
  pure (.response 200
    (notice [("status", "success"), ("message", "Last command reset successfully")]))

/-- Tells what is remembered of a user (`get_conversation_history`). -/
def conversationHistory (user : Text) : Service Answer :=
  guarded (problem 500) do
    let exchanges := (← get).memory.exchanges user
    let context ← context user
    let p := Preferences.ofExchanges exchanges
    let count (n : Nat) : Json := .int n
    let body : Json := .object [("user_id", .text user),
      ("conversation_summaries", .list (exchanges.map Exchange.toJson)),
      ("formatted_context", .text context),
      ("extracted_preferences", if exchanges.isEmpty then .object [] else p.toJson),
      ("total_conversations", count exchanges.length),
      ("has_context", .bool !exchanges.isEmpty),
      ("learning_analysis", .object [
        ("has_corrections", .bool (exchanges.any (·.intent = .correction))),
        ("preferred_delays_learned", count p.delays.length),
        ("apps_used", count p.applications.length),
        ("corrections_count", count p.corrections.length)])]
    pure (.response 200 (← ofUse body.finite))

/-- A script to try the connection with. -/
def sampleScript : Json :=
  .object [("script", .text "GUI r\nDELAY 300\nSTRING notepad\nENTER"),
    ("password", .text "E1s2t3e4r5"), ("repeat", .bool true)]

/-- Sends a script to try the connection (`test_ducky_format`). -/
def tryScript : Service Answer := do
  let sent ← publishScript sampleScript
  pure (.response 200 (.object [("status", .text (if sent then "success" else "failed" : String)),
    ("message", .text "Test ducky script sent with correct format"), ("payload", sampleScript)]))

/-- Exchanges to show the memory with: what is said, done and answered, and the script. -/
def samples : List (String × String × String × String) :=
  [("open notepad and write hello world",
      "executed computer command: GUI r\\nDELAY 300\\nSTRING notepad\\nENTER\\nDELAY 500\\n"
        ++ "STRING hello world",
      "I'll open notepad and write 'hello world' for you.",
      "GUI r\\nDELAY 300\\nSTRING notepad\\nENTER\\nDELAY 500\\nSTRING hello world"),
    ("hey you forgot the delay part which I said after opening should be 2000ms",
      "executed computer command with correction: GUI r\\nDELAY 300\\nSTRING notepad\\nENTER\\n"
        ++ "DELAY 2000\\nSTRING hello world",
      "You're absolutely right! I'll use 2000ms delay after opening as you requested. "
        ++ "Let me correct that.",
      "GUI r\\nDELAY 300\\nSTRING notepad\\nENTER\\nDELAY 2000\\nSTRING hello world"),
    ("do it again",
      "executed computer command: GUI r\\nDELAY 300\\nSTRING notepad\\nENTER\\nDELAY 2000\\n"
        ++ "STRING hello world",
      "Opening notepad again with the 2000ms delay you prefer.",
      "GUI r\\nDELAY 300\\nSTRING notepad\\nENTER\\nDELAY 2000\\nSTRING hello world")]

/-- Replaces a user's conversation by sample exchanges (`demo_conversation`). -/
def demonstrate (user : Text) : Service Answer :=
  guarded (problem 500) do
    modify fun d ↦ { d with memory := d.memory.put user [] }
    samples.forM fun (said, did, answered, script) ↦
      remember user said did (.text answered)
        (.object [("output_ducky_script", .text script)])
    let context ← context user
    let total := ((← get).memory.exchanges user).length
    pure (.response 200 (.object [("status", .text "success"),
      ("message", .text "Demo conversation history created"),
      ("conversation_context", .text context), ("total_conversations", .int total)]))

/-- The file that holds the last picture of a user's screen. -/
def pictureFile (user : Text) : Text :=
  "/tmp/".toList ++ user ++ "_latest_screen.png".toList

/-- Why a picture cannot be stored. -/
inductive StoreFault where
  | nullCharacter
  | longName (file : Text)
  | noDirectory (file : Text)
  deriving DecidableEq

/-- The message for a fault. -/
def StoreFault.message : StoreFault → Text
  | .nullCharacter => "embedded null byte"
  | .longName file => "[Errno 36] File name too long: ".toList ++ Text.quoted file
  | .noDirectory file => "[Errno 2] No such file or directory: ".toList ++ Text.quoted file

/-- Whether a part of a file's name is longer than a directory can hold. -/
def isLongName (part : Text) : Bool := (Text.toUtf8 part).length > 255

/-- The first part of a file's name that leads into a further directory. -/
def furtherDirectory? (file : Text) : Option Text :=
  ((Text.splitOn file "/").drop 2).dropLast.find? fun part ↦
    !(["", ".", ".."].map String.toList).contains part

/-- The file to store a user's picture in. There are no directories below the one for files that may
be lost. -/
def storeIn (user : Text) : Except StoreFault Text :=
  let file := pictureFile user
  if file.contains '\x00' then .error .nullCharacter
  else if (Text.toUtf8 file).length > 4095 then .error (.longName file)
  else
    match furtherDirectory? file with
    | some part => .error (if isLongName part then .longName file else .noDirectory file)
    | none =>
      if isLongName ((Text.splitOn file "/").getLastD []) then .error (.longName file)
      else .ok file

/-- Stores a picture of a user's screen (`upload_screenshot`). -/
def storePicture (user : Text) (data : Except Text (List UInt8)) : Service Answer := do
  match data, storeIn user with
  | .ok picture, .ok _ =>
    modify fun d ↦ { d with pictures := d.pictures.put user picture }
    pure (.plain (notice [("status", "success"), ("message", "Screenshot uploaded")]))
  | .error message, _ => pure (.plain (failed message))
  | _, .error fault => pure (.plain (failed fault.message))
where
  /-- The answer when a picture was not stored. -/
  failed (message : Text) : Json :=
    .object [("status", .text "error"), ("message", .text message)]

/-- What the service says about itself (`read_root`). -/
def welcome : Json :=
  .object [("message", .text "Welcome to Alice AI Assistant API"), ("version", .text "0.1.0"),
    ("endpoints", notice [("/process_audio", "POST - Process audio and get AI response"),
      ("/reset_conversation", "POST - Reset conversation context")])]

/-- A call. -/
inductive Call where
  | processAudio (user : Text) (upload : Upload) (transcript : Except Text (Option Text))
    (outcomes : List Model.Outcome)
  | resetConversation (user : Text)
  | trySearch (query : Json)
  | executeCommand (body : Text)
  | resetLastCommand
  | conversationHistory (user : Text)
  | tryScript
  | demonstrate (user : Text)
  | storePicture (user : Text) (data : Except Text (List UInt8))
  | welcome

/-- Answers a call. -/
def serve [Soup] : Call → Service Answer
  | .processAudio user upload transcript outcomes => do
    modify fun d ↦ { d with outcomes }
    processAudio user upload transcript
  | .resetConversation user => resetConversation user
  | .trySearch query => trySearch query
  | .executeCommand body => executeCommand body
  | .resetLastCommand => resetLastCommand
  | .conversationHistory user => conversationHistory user
  | .tryScript => tryScript
  | .demonstrate user => demonstrate user
  | .storePicture user data => storePicture user data
  | .welcome => pure (.plain welcome)

end Deskhand.Assistant
