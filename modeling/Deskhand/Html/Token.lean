import Deskhand.Html.Reference
import Deskhand.Table
import Deskhand.Text.Blank
import Deskhand.Text.Case

/-!
# Tokens of a page

A page is cut into texts, opening and closing tags, and gaps, which are comments and declarations: a
gap separates the texts around it. The content of a script or a style sheet is one text up to the
closing tag, without references.
-/

namespace Deskhand.Html

/-- A token. -/
inductive Token where
  | text (t : Text)
  | openTag (name : Text) (attributes : Table Text) (closed : Bool)
  | closeTag (name : Text)
  | gap

/-- Whether a character ends a name in a tag. -/
def endsName (c : Char) : Bool := Text.isBlank c || c == '/' || c == '>'

/-- The value of an attribute, and the rest. -/
def attributeValue (t : Text) : Text × Text :=
  let inQuotes (q : Char) (rest : Text) : Text × Text :=
    let v := rest.takeWhile (· != q)
    (v, rest.drop (v.length + 1))
  match t with
  | '"' :: rest => inQuotes '"' rest
  | '\'' :: rest => inQuotes '\'' rest
  | t => t.span fun c ↦ !(Text.isBlank c || c == '>')

/-- The attributes of a tag, whether it is closed at once, and what follows the tag; `fuel` bounds
the number of attributes. -/
def attributes : Nat → Table Text → Text → Option (Table Text × Bool × Text)
  | 0, _, _ => none
  | fuel + 1, found, t =>
    match Text.trimLeft t with
    | [] => none
    | '>' :: rest => some (found, false, rest)
    | '/' :: '>' :: rest => some (found, true, rest)
    | '/' :: rest => attributes fuel found rest
    | c :: rest =>
      let tail := rest.takeWhile fun c ↦ !(endsName c || c == '=')
      let rest := rest.drop tail.length
      let key := Text.lower (c :: tail)
      match Text.trimLeft rest with
      | '=' :: more =>
        let (v, rest) := attributeValue (Text.trimLeft (more.dropWhile (· == '=')))
        attributes fuel (found.put key (unescape (v.length + 1) v)) rest
      | _ => attributes fuel (found.put key []) rest

/-- Elements whose content is one text. -/
def isRaw (name : Text) : Bool := name == "script".toList || name == "style".toList

/-- What follows the first `mark`, if it occurs. -/
def pastMark? (mark t : Text) : Option Text :=
  (Text.position? mark t).map fun i ↦ t.drop (i + mark.length)

/-- The raw content of an element up to its closing tag, and the text from there on. -/
def rawContent (name : Text) : Text → Text × Text
  | [] => ([], [])
  | c :: rest =>
    let closing :=
      match Text.after? "</" (c :: rest) with
      | some r =>
        Text.lower (r.take name.length) == name
          && ((Text.trimLeft (r.drop name.length)).head? == some '>')
      | none => false
    if closing then ([], c :: rest)
    else
      let (t, r) := rawContent name rest
      (c :: t, r)

/-- A text in front of tokens; neighbouring texts are one. -/
def addText (t : Text) : List Token → List Token
  | .text s :: rest => .text (t ++ s) :: rest
  | tokens => if t.isEmpty then tokens else .text t :: tokens

/-- The tokens of a page, `fuel` bounding their number. -/
def tokensFrom : Nat → Text → List Token
  | 0, _ => []
  | _ + 1, [] => []
  | fuel + 1, c :: rest =>
    if c == '<' then
      match rest with
      | '/' :: after =>
        let name := after.takeWhile (!endsName ·)
        match pastMark? ">" after with
        | some r => .closeTag (Text.lower name) :: tokensFrom fuel r
        | none => addText [c] (tokensFrom fuel rest)
      | '!' :: after =>
        let past :=
          match after with
          | '-' :: '-' :: body => pastMark? "-->" body
          | body => pastMark? ">" body
        match past with
        | some r => .gap :: tokensFrom fuel r
        | none => addText [c] (tokensFrom fuel rest)
      | '?' :: after =>
        match pastMark? ">" after with
        | some r => .gap :: tokensFrom fuel r
        | none => addText [c] (tokensFrom fuel rest)
      | rest =>
        if (rest.head?.map Char.isAlpha).getD false then
          let name := rest.takeWhile (!endsName ·)
          match attributes (rest.length + 1) [] (rest.drop name.length) with
          | some (found, closed, r) =>
            let name := Text.lower name
            if isRaw name && !closed then
              let (content, r) := rawContent name r
              .openTag name found closed :: addText content (tokensFrom fuel r)
            else .openTag name found closed :: tokensFrom fuel r
          | none => addText [c] (tokensFrom fuel rest)
        else addText [c] (tokensFrom fuel rest)
    else if c == '&' then
      match reference? rest with
      | some (t, r) => addText t (tokensFrom fuel r)
      | none => addText [c] (tokensFrom fuel rest)
    else addText [c] (tokensFrom fuel rest)

/-- The tokens of a page. Every token takes a character, so the length bounds their number. -/
def tokens (page : Text) : List Token := tokensFrom (page.length + 1) page

end Deskhand.Html
