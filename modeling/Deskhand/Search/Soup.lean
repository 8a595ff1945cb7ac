import Deskhand.Text.Basic

/-!
# The library that reads pages

Pages are read with a library (`BeautifulSoup`, with the selectors of its `select`). Searching uses
seven of its operations and nothing else, so they are parameters here: whatever is said of a search
holds for every library that has them. All that is assumed of them is in their types. The parser
refuses a text or gives a page, every other operation always has a result, and the value of an
attribute is a text.
-/

namespace Deskhand

/-- A library that reads pages. -/
class Soup where
  /-- A page, or an element of one. -/
  Element : Type
  /-- Reads a page, unless the parser refuses it. -/
  parse? : Text → Option Element
  /-- The elements inside that a selector chooses, in order (`select`). -/
  select : Element → Text → List Element
  /-- The first element inside that a selector chooses (`select_one`). -/
  first? : Element → Text → Option Element
  /-- The page without the elements that a selector chooses (`decompose`). -/
  without : Element → Text → Element
  /-- The body of a page. -/
  body? : Element → Option Element
  /-- The texts inside, without blanks around each, joined by a separator (`get_text`). -/
  text : Element → Text → Text
  /-- The value of an attribute (`attrs`). -/
  attribute? : Element → Text → Option Text

end Deskhand
