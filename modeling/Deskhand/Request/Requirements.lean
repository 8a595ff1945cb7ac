import Deskhand.Request.Corrections

/-!
# Requirements in a request

The delay, the application and the text to type that a request names. Of several applications the one
that stands last in the list counts; of several ways to name a text the last one that fits.
-/

namespace Deskhand.Request

/-- What a request requires. -/
structure Requirements where
  delay : Option Text := none
  application : Option Text := none
  /-- The text to be typed. -/
  typed : Option Text := none
  deriving DecidableEq

/-- The applications that are known by name. -/
def applications : List String :=
  ["notepad", "chrome", "firefox", "calculator", "cmd", "powershell"]

/-- What follows a word and the blanks after it: the blanks, and the rest. -/
def afterWord? (word t : Text) : Option (Text × Text) :=
  match Text.after? word t with
  | none => none
  | some rest =>
    let blanks := rest.takeWhile Text.isBlank
    if blanks.isEmpty then none else some (blanks, rest.drop blanks.length)

/-- A text in double quotes after a word. -/
def quotedAfter? (word t : Text) : Option Text :=
  match afterWord? word t with
  | some (_, '"' :: rest) =>
    let inner := rest.takeWhile (· != '"')
    if inner.isEmpty || inner.length == rest.length then none else some inner
  | _ => none

/-- Whether a character ends a sentence. -/
def endsSentence (c : Char) : Bool := c == '.' || c == '!' || c == '?'

/-- The rest of the sentence after a word. Where nothing but blanks is left of it, the last of two or
more blanks counts. -/
def sentenceAfter? (word t : Text) : Option Text :=
  match afterWord? word t with
  | some (blanks, rest) =>
    let inner := rest.takeWhile (!endsSentence ·)
    if !inner.isEmpty then some inner
    else if blanks.length ≥ 2 then some (blanks.drop (blanks.length - 1))
    else none
  | none => none

/-- The ways to name a text to type. -/
def typedForms : List (Text → Option Text) :=
  [quotedAfter? "write", quotedAfter? "type", sentenceAfter? "write", sentenceAfter? "type"]

/-- What a request requires (`extract_specific_requirements`). -/
def requirements (request : Text) : Requirements :=
  let t := Text.lower request
  { delay := (preferredDelays t).getLast?
    application := (applications.map String.toList).reverse.find? (Text.has t)
    typed := (typedForms.reverse.findSome? fun form ↦ Text.first? form t).map Text.trim }

/-- The requirements as an object with a field for each. -/
def Requirements.toJson (r : Requirements) : Json :=
  .object (textField "preferred_delay" r.delay ++ textField "target_application" r.application
    ++ textField "text_to_type" r.typed)

end Deskhand.Request
