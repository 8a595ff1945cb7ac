import Deskhand.Html.Token

/-!
# Pages as trees

The tokens of a page become a tree of elements and texts. A closing tag closes the innermost open
element of its name and all that were opened since; without such an element it counts for nothing.
-/

namespace Deskhand.Html

/-- A part of a page. -/
inductive Node where
  | text (t : Text)
  | element (name : Text) (attributes : List (Text × Text)) (children : List Node)

/-- Elements that never have content. -/
def voidNames : List String :=
  ["area", "base", "br", "col", "embed", "hr", "img", "input", "keygen", "link", "menuitem", "meta",
    "param", "source", "track", "wbr", "basefont", "bgsound", "command", "frame", "image", "isindex",
    "nextid", "spacer"]

/-- Whether an element never has content. -/
def isVoid (name : Text) : Bool := voidNames.any fun (v : String) ↦ v.toList == name

/-- An element that is still open; its children are in reverse order. -/
structure OpenElement where
  name : Text
  attributes : Table Text
  children : List Node

/-- The elements that are open, the innermost first, and the finished parts outside them, in reverse
order. -/
structure Growth where
  opened : List OpenElement := []
  done : List Node := []

namespace Growth

/-- Adds a finished part to the innermost open element. -/
def add (g : Growth) (n : Node) : Growth :=
  match g.opened with
  | [] => { g with done := n :: g.done }
  | e :: outer => { g with opened := { e with children := n :: e.children } :: outer }

/-- Closes the innermost open element. -/
def close (g : Growth) : Growth :=
  match g.opened with
  | [] => g
  | e :: outer =>
    { g with opened := outer }.add (.element e.name e.attributes e.children.reverse)

/-- Closes a number of open elements. -/
def closeMany : Nat → Growth → Growth
  | 0, g => g
  | n + 1, g => closeMany n g.close

/-- The growth after one more token. -/
def step (g : Growth) : Token → Growth
  | .text t => g.add (.text t)
  | .gap => g
  | .openTag name attributes closed =>
    if closed || isVoid name then g.add (.element name attributes [])
    else { g with opened := ⟨name, attributes, []⟩ :: g.opened }
  | .closeTag name =>
    match g.opened.findIdx? (·.name == name) with
    | some i => closeMany (i + 1) g
    | none => g

end Growth

/-- The tree of a page. -/
def parse (page : Text) : List Node :=
  let g := (tokens page).foldl Growth.step {}
  (Growth.closeMany g.opened.length g).done.reverse

/-- Elements whose texts do not belong to the text of an element around them. -/
def containers : List String := ["script", "style", "template", "rt", "rp"]

/-- The container that the texts of an element belong to. -/
def containerOf (outer : Option Text) (name : Text) : Option Text :=
  if containers.any fun (v : String) ↦ v.toList == name then some name else outer

mutual

/-- The texts in a part that belong to the `wanted` container, without the blanks around them;
`inside` is the container around the part. -/
def Node.texts (wanted inside : Option Text) : Node → List Text
  | .text t =>
    let t := Text.trim t
    if wanted == inside && !t.isEmpty then [t] else []
  | .element name _ children => textsOf wanted (containerOf inside name) children

/-- The texts in parts that belong to the `wanted` container. -/
def textsOf (wanted inside : Option Text) : List Node → List Text
  | [] => []
  | n :: rest => n.texts wanted inside ++ textsOf wanted inside rest

end

/-- An element, and the elements around it from the inside to the outside. -/
structure Found where
  name : Text
  attributes : Table Text
  children : List Node
  around : List (Text × Table Text)

/-- The text of an element, its pieces joined by `sep`. -/
def Found.text (e : Found) (sep : Text) : Text :=
  let own := containerOf none e.name
  Text.join sep (textsOf own own e.children)

/-- The value of an attribute. -/
def Found.attribute? (e : Found) (key : Text) : Option Text := e.attributes.get? key

mutual

/-- The elements of a part, in the order in which they begin. -/
def Node.elements (around : List (Text × Table Text)) : Node → List Found
  | .text _ => []
  | .element name attributes children =>
    ⟨name, attributes, children, around⟩ :: elementsOf ((name, attributes) :: around) children

/-- The elements of parts, in the order in which they begin. -/
def elementsOf (around : List (Text × Table Text)) : List Node → List Found
  | [] => []
  | n :: rest => n.elements around ++ elementsOf around rest

end

/-- The elements inside an element. -/
def Found.inner (e : Found) :
    List Found := elementsOf ((e.name, e.attributes) :: e.around) e.children

end Deskhand.Html
