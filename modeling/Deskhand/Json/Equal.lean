import Deskhand.Json.Basic

/-!
# Equality of JSON values

Numbers are compared by what they are worth, whatever their kind, and objects without regard to the
order of their fields.
-/

namespace Deskhand.Json

/-- What a number is worth. A truth value is worth one or nothing. -/
inductive Worth where
  | whole (n : Int)
  | binary (x : Binary64)

/-- What a value is worth, if it is a number. -/
def worth? : Json → Option Worth
  | .bool b => some (.whole (if b then 1 else 0))
  | .int n => some (.whole n)
  | .float x => some (.binary x)
  | _ => none

/-- Whether two numbers are worth the same. -/
def Worth.equals : Worth → Worth → Bool
  | .whole m, .whole n => m == n
  | .binary x, .whole n => x.orderInt? n == some .eq
  | .whole m, .binary y => y.orderInt? m == some .eq
  | .binary x, .binary y => x.order? y == some .eq

/-- Whether two values are both numbers and worth the same. -/
def equalNumbers (v w : Json) : Bool :=
  match v.worth?, w.worth? with
  | some a, some b => a.equals b
  | _, _ => false

mutual

/-- Whether two values are equal. -/
def equals : Json → Json → Bool
  | .null, .null => true
  | .text s, .text t => s == t
  | .list items, .list others => equalItems items others
  | .object fields, .object others =>
    fields.length == others.length && equalFields fields others
  | v, w => equalNumbers v w

/-- Whether two lists have equal items. -/
def equalItems : List Json → List Json → Bool
  | [], [] => true
  | v :: rest, w :: others => equals v w && equalItems rest others
  | _, _ => false

/-- Whether each field is equal to the field of that name in an object. -/
def equalFields : List (Text × Json) → List (Text × Json) → Bool
  | [], _ => true
  | (key, v) :: rest, others =>
    (match Table.get? others key with
      | some w => equals v w
      | none => false) && equalFields rest others

end

end Deskhand.Json
