import Deskhand.Text.Case

/-!
# What a request is after

The intent of a request is judged by the words in it, whatever their case. The first rule with a word
that occurs decides.
-/

namespace Deskhand

/-- What a request is after. -/
inductive Intent where
  | correction
  | repetition
  | computer
  | information
  | conversation
  deriving DecidableEq

namespace Intent

/-- The name of an intent. -/
def name : Intent → Text
  | .correction => "correction_feedback"
  | .repetition => "repeat_previous_action"
  | .computer => "computer_control"
  | .information => "information_search"
  | .conversation => "general_conversation"

/-- The words that show an intent, in the order in which the intents are tried. -/
def signs : List (Intent × List String) :=
  [(.correction, ["forgot", "wrong", "should be", "instead", "correct", "fix", "mistake"]),
    (.repetition, ["do it again", "same thing", "again", "repeat", "that command"]),
    (.computer, ["open", "close", "run", "launch", "execute", "type", "write"]),
    (.information, ["what", "how", "when", "where", "search", "find", "weather"])]

/-- The intent of a request (`analyze_user_intent`). -/
def ofRequest (request : Text) : Intent :=
  let t := Text.lower request
  match signs.find? fun (_, words) ↦ words.any fun w ↦ Text.has t w with
  | some (intent, _) => intent
  | none => .conversation

end Intent

end Deskhand
