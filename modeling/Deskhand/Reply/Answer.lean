import Deskhand.Json.Reader
import Deskhand.Text.Case

/-!
# Answers in a model's reply

A language model is asked to reply with a JSON object. Often it wraps the object into a code block or
into sentences, so the answer is looked for in several places. A reply without any becomes an answer
of its own: the reply itself, with the lines that look like script commands as a script.
-/

namespace Deskhand.Reply

/-- An answer with the given words, script and relation to what was said before. -/
def answer (words script : Text) (relation : Int) : Json :=
  .object [("output_natural_response", .text words), ("output_ducky_script", .text script),
    ("output_appliances_response", .object []), ("output_search_required", .int 0),
    ("output_search_query", .text []), ("previous_relation", .int relation),
    ("new_previous_convo", .text [])]

/-- The text between the first `opening` and the next `closing` after it. -/
def between? (opening closing t : Text) : Option Text :=
  match Text.position? opening t with
  | none => none
  | some i =>
    let rest := t.drop (i + opening.length)
    (Text.position? closing rest).map rest.take

/-- The text from the first opening brace to the last closing one. -/
def braced? (t : Text) : Option Text :=
  let rest := t.dropWhile (· != '\x7b')
  let core := (rest.reverse.dropWhile (· != '\x7d')).reverse
  if core.isEmpty then none else some core

/-- The places in a reply where an answer may stand. -/
def places (reply : Text) : List Text :=
  [between? "```json\n" "\n```" reply, between? "```\n" "\n```" reply, braced? reply].filterMap
    (·.map Text.trim)

/-- Whether a line looks like a script command. -/
def isCommandLine (line : Text) : Bool :=
  ["GUI", "STRING", "DELAY", "ENTER", "TAB", "ALT"].any fun (w : String) ↦ Text.has line w

/-- The lines of a reply that look like script commands, if one of three commands occurs. -/
def commandLines (reply : Text) : Text :=
  if ["GUI", "STRING", "DELAY"].any fun (w : String) ↦ Text.has reply w then
    Text.join "\n" (((Text.splitOn reply "\n").map Text.trim).filter isCommandLine)
  else []

/-- The answer made of a reply that holds none. -/
def fallback (reply : Text) : Json :=
  answer (if reply.length < 500 then reply else "I understand your request and will execute it.")
    (commandLines reply) (if Text.has (Text.lower reply) "previous" then 1 else 0)

/-- The first of some texts that is JSON. A number with too many digits ends the search. -/
def firstJson? : List Text → Except Number.ReadError (Option Json)
  | [] => .ok none
  | t :: rest =>
    match Json.read t with
    | .ok v => .ok (some v)
    | .error (.flaw ..) => firstJson? rest
    | .error (.number e) => .error e

/-- The answer in a reply (`extract_json_from_llm_response`). -/
def extract (reply : Text) : Except Number.ReadError Json :=
  (firstJson? (reply :: places reply)).map (·.getD (fallback reply))

end Deskhand.Reply
