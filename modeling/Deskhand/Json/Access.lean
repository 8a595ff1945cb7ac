import Deskhand.Failure
import Deskhand.Json.Basic

/-!
# Using JSON values of unknown kind

The replies of a language model are JSON values of any kind. The operations below say what happens
when a value is used in a way that its kind does not allow.
-/

namespace Deskhand.Json

/-- A use that a value's kind does not allow. -/
inductive Misuse where
  /-- Values of this kind have no such member. -/
  | noMember (kind member : Text)
  /-- Values of this kind have no length. -/
  | noLength (kind : Text)
  /-- Values of this kind hold nothing that could be looked for. -/
  | noContent (kind : Text)
  /-- Values of this kind have no first part. -/
  | noPart (kind : Text)
  /-- An object has no first part. -/
  | objectPart
  /-- A text cannot be added to a list. -/
  | listAndText
  /-- An object lacks a field. -/
  | noField (name : Text)
  /-- A number is not finite, so it cannot be answered. -/
  | notFinite
  deriving DecidableEq

namespace Misuse

/-- The family of a misuse. -/
def family : Misuse → Family
  | .noMember .. => .member
  | .noField _ => .field
  | .notFinite => .value
  | _ => .type

/-- The message for a misuse. -/
def message : Misuse → Text
  | .noMember kind member =>
    Text.between "'" kind ++ " object has no attribute ".toList ++ Text.between "'" member
  | .noLength kind => "object of type ".toList ++ Text.between "'" kind ++ " has no len()".toList
  | .noContent kind =>
    "argument of type ".toList ++ Text.between "'" kind ++ " is not iterable".toList
  | .noPart kind => Text.between "'" kind ++ " object is not subscriptable".toList
  | .objectPart => "unhashable type: 'slice'"
  | .listAndText => "can only concatenate list (not \"str\") to list"
  | .noField name => Text.quoted name
  | .notFinite => "Out of range float values are not JSON compliant"

end Misuse

/-- The value of a field, if an object has it. -/
def get? (key : Text) : Json → Except Misuse (Option Json)
  | .object fields => .ok (Table.get? fields key)
  | v => .error (.noMember v.kindName "get")

/-- The value of a field, null if an object lacks it. -/
def get (key : Text) (v : Json) : Except Misuse Json := (get? key v).map (·.getD .null)

/-- The number of characters, items or fields. -/
def length : Json → Except Misuse Nat
  | .text t => .ok t.length
  | .list items => .ok items.length
  | .object fields => .ok fields.length
  | v => .error (.noLength v.kindName)

/-- The first part of a text or a list. -/
def firstPart (n : Nat) : Json → Except Misuse Json
  | .text t => .ok (.text (t.take n))
  | .list items => .ok (.list (items.take n))
  | .object _ => .error .objectPart
  | v => .error (.noPart v.kindName)

/-- Whether a value is the given text. -/
def isText (t : Text) : Json → Bool
  | .text s => s == t
  | _ => false

/-- Whether a text occurs in a value: as a part of a text, an item of a list or a field's name. -/
def includes (part : Text) : Json → Except Misuse Bool
  | .text t => .ok (Text.has t part)
  | .list items => .ok (items.any (isText part))
  | .object fields => .ok (Table.hasKey fields part)
  | v => .error (.noContent v.kindName)

/-- Whether a value is equal to the number one. -/
def isOne : Json → Bool
  | .bool b => b
  | .int n => n == 1
  | .float x => x.orderInt? 1 == some .eq
  | _ => false

/-- A value that may be answered: all its numbers are finite. -/
def finite (v : Json) : Except Misuse Json := if v.isFinite then .ok v else .error .notFinite

end Deskhand.Json
