import Deskhand.Html.Tree
import Deskhand.Search.Soup

/-!
# Choosing elements

An element is chosen by its name, a class or its mark of identity, and by an element around it. With
that much of the selectors the pages of `Html.parse` are a library that reads pages: the one that
searches are run with.
-/

namespace Deskhand.Html

/-- What an element has to be. -/
structure Pattern where
  name : Option Text
  class? : Option Text
  id? : Option Text

/-- The pattern `name`, `.class`, `#id`, `name.class` or `name#id`. -/
def Pattern.ofText (t : Text) : Pattern :=
  let (name, mark) := t.span fun c ↦ c != '.' && c != '#'
  { name := if name.isEmpty then none else some name
    class? := Text.after? "." mark
    id? := Text.after? "#" mark }

/-- The classes of an element. -/
def classesOf (attributes : Table Text) : List Text :=
  Text.words ((attributes.get? "class").getD [])

/-- Whether an element of a name and attributes fits. -/
def Pattern.fits (p : Pattern) (name : Text) (attributes : Table Text) : Bool :=
  p.name.all (· == name) && p.class?.all (classesOf attributes).contains
    && p.id?.all fun i ↦ attributes.get? "id" == some i

/-- A pattern for an element, and one for an element around it. -/
structure Selector where
  self : Pattern
  outer : Option Pattern

/-- The selectors of a text with commas between them. -/
def Selector.ofText (t : Text) : List Selector :=
  (Text.splitOn t ",").filterMap fun s ↦
    match (Text.words s).map Pattern.ofText with
    | [self] => some ⟨self, none⟩
    | [outer, self] => some ⟨self, some outer⟩
    | _ => none

/-- Whether a found element fits. -/
def Selector.fits (s : Selector) (e : Found) : Bool :=
  s.self.fits e.name e.attributes
    && s.outer.all fun p ↦ e.around.any fun (name, attributes) ↦ p.fits name attributes

/-- Whether a found element fits one of some selectors. -/
def fitsAny (ss : List Selector) (e : Found) : Bool := ss.any (·.fits e)

mutual

/-- A part without the elements that fit one of some selectors; nothing if it is one. -/
def Node.without (ss : List Selector) (around : List (Text × Table Text)) : Node → Option Node
  | .text t => some (.text t)
  | .element name attributes children =>
    if fitsAny ss ⟨name, attributes, children, around⟩ then none
    else some (.element name attributes (withoutAll ss ((name, attributes) :: around) children))

/-- Parts without the elements that fit one of some selectors. -/
def withoutAll (ss : List Selector) (around : List (Text × Table Text)) : List Node → List Node
  | [] => []
  | n :: rest => (n.without ss around).toList ++ withoutAll ss around rest

end

/-- The pages of `parse`, with its parts as elements; a page itself is an element without a name. -/
instance soup : Soup where
  Element := Found
  parse? page := some ⟨[], [], parse page, []⟩
  select e s := e.inner.filter (fitsAny (Selector.ofText s))
  first? e s := e.inner.find? (fitsAny (Selector.ofText s))
  without e s :=
    let around := (e.name, e.attributes) :: e.around
    { e with children := withoutAll (Selector.ofText s) around e.children }
  body? e := e.inner.find? (fitsAny (Selector.ofText "body"))
  text := Found.text
  attribute? := Found.attribute?

end Deskhand.Html
