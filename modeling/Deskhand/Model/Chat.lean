import Deskhand.Model.Prompt
import Deskhand.Reply.Answer
import Deskhand.Settings

/-!
# Talking to the language model

A question to the model, what can come of it, and how any outcome becomes an answer.
-/

namespace Deskhand.Model

/-- A part of a turn. -/
inductive Part where
  | text (t : Text)
  | image (url : Text)
  deriving DecidableEq

/-- What a turn says: a text, or several parts. -/
inductive Content where
  | text (t : Text)
  | parts (ps : List Part)
  deriving DecidableEq

/-- A turn of a conversation with the model. -/
structure Turn where
  role : Text
  content : Content
  deriving DecidableEq

/-- A question to the model. -/
structure Question where
  model : Text
  turns : List Turn
  maxTokens : Int
  temperature : Binary64
  /-- Whether it says that the answer shall come whole and without a stop word. -/
  whole : Bool := false

/-- What can come of a question. -/
inductive Outcome where
  /-- A reply, which may be without content. -/
  | content (t : Option Text)
  /-- A reply without any choice. -/
  | noChoice
  /-- The service failed. -/
  | failed (message : Text)
  deriving DecidableEq

/-- Why a question has no reply. -/
inductive Fault where
  | service (message : Text)
  | noChoice
  deriving DecidableEq

/-- The family of a fault. -/
def Fault.family : Fault → Family
  | .service _ => .service
  | .noChoice => .index

/-- The message for a fault. -/
def Fault.message : Fault → Text
  | .service message => message
  | .noChoice => "list index out of range"

/-- The reply in an outcome. -/
def Outcome.reply : Outcome → Except Fault (Option Text)
  | .content t => .ok t
  | .noChoice => .error .noChoice
  | .failed message => .error (.service message)

/-- The question for a request in a context. -/
def question (s : Settings) (request context : Text) : Question where
  model := s.model
  turns := [⟨"system", .text (prompt request context)⟩, ⟨"user", .text request⟩]
  maxTokens := s.maxTokens
  temperature := s.temperature
  whole := true

/-- Why a reply holds no answer. -/
inductive ReplyFault where
  /-- The reply has no content. -/
  | noContent
  | number (error : Number.ReadError)
  deriving DecidableEq

/-- The family of a fault. -/
def ReplyFault.family : ReplyFault → Family
  | .noContent => .type
  | .number _ => .value

/-- The message for a fault. -/
def ReplyFault.message : ReplyFault → Text
  | .noContent => "the JSON object must be str, bytes or bytearray, not NoneType"
  | .number error => error.message

/-- The answer in a reply. -/
def answerIn : Option Text → Except ReplyFault Json
  | none => .error .noContent
  | some t => (Reply.extract t).mapError .number

/-- The answer that reports a problem. -/
def apology (message : Text) : Json :=
  Reply.answer ("I encountered an error: ".toList ++ message ++ ". Please try again.".toList) [] 0

/-- The answer an outcome leads to. -/
def Outcome.answer (o : Outcome) : Json :=
  match o.reply with
  | .error e => apology e.message
  | .ok t =>
    match answerIn t with
    | .ok v => v
    | .error e => apology e.message

/-- The question that asks for the steps of a request (`workflow_planner`). -/
def planQuestion (request : Text) : Question where
  model := "llama-3.1-8b-instant"
  turns := [⟨"user", .text ("Plan steps for: ".toList ++ request)⟩]
  maxTokens := 512
  temperature := Number.ofDecimal false 3 (-1)

/-- The question about a picture (`visual_analyzer`). -/
def pictureQuestion (picture context : Text) : Question where
  model := "llama-3.2-11b-vision-preview"
  turns := [⟨"user",
    .parts [.text context, .image ("data:image/png;base64,".toList ++ picture)]⟩]
  maxTokens := 800
  temperature := Number.ofDecimal false 1 (-1)

end Deskhand.Model
