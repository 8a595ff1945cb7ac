import Deskhand.Number.Shortest
import Deskhand.Table
import Deskhand.Text.Quoted

/-!
# JSON values

A JSON value keeps the order of an object's fields. Integers have any size; a number with a fraction
or an exponent is a binary number.
-/

namespace Deskhand

/-- A JSON value. -/
inductive Json where
  | null
  | bool (b : Bool)
  | int (n : Int)
  | float (x : Binary64)
  | text (t : Text)
  | list (items : List Json)
  | object (fields : List (Text × Json))
  deriving Inhabited

namespace Json

instance : Coe Text Json := ⟨.text⟩

/-- The value of a field, for an object that has it. -/
def field? (key : Text) : Json → Option Json
  | .object fields => Table.get? fields key
  | _ => none

/-- The text of a value that is one. -/
def text? : Json → Option Text
  | .text t => some t
  | _ => none

/-- Whether a value counts as given: zeros and empty things do not. -/
def truth : Json → Bool
  | .null => false
  | .bool b => b
  | .int n => n != 0
  | .float x => !x.isZero
  | .text t => !t.isEmpty
  | .list items => !items.isEmpty
  | .object fields => !fields.isEmpty

/-- The name of a value's kind. -/
def kindName : Json → Text
  | .null => "NoneType"
  | .bool _ => "bool"
  | .int _ => "int"
  | .float _ => "float"
  | .text _ => "str"
  | .list _ => "list"
  | .object _ => "dict"

mutual

/-- The text that shows a value within a sentence. -/
def shown : Json → Text
  | .null => "None"
  | .bool b => if b then "True" else "False"
  | .int n => Text.ofInt n
  | .float x => x.text
  | .text t => Text.quoted t
  | .list items => '[' :: Text.join ", " (shownItems items) ++ [']']
  | .object fields => '\x7b' :: Text.join ", " (shownFields fields) ++ ['\x7d']

/-- The texts that show the items of a list. -/
def shownItems : List Json → List Text
  | [] => []
  | v :: rest => shown v :: shownItems rest

/-- The texts that show the fields of an object. -/
def shownFields : List (Text × Json) → List Text
  | [] => []
  | (key, v) :: rest => (Text.quoted key ++ ": ".toList ++ shown v) :: shownFields rest

end

/-- The text a value has within a sentence: a text is itself, any other value is shown. -/
def display : Json → Text
  | .text t => t
  | v => shown v

mutual

/-- Whether every number in a value is finite. -/
def isFinite : Json → Bool
  | .float x => x.isFinite
  | .list items => isFiniteItems items
  | .object fields => isFiniteFields fields
  | _ => true

/-- Whether every number in the items of a list is finite. -/
def isFiniteItems : List Json → Bool
  | [] => true
  | v :: rest => isFinite v && isFiniteItems rest

/-- Whether every number in the fields of an object is finite. -/
def isFiniteFields : List (Text × Json) → Bool
  | [] => true
  | (_, v) :: rest => isFinite v && isFiniteFields rest

end

end Json

end Deskhand
