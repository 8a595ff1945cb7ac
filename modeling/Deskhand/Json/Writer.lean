import Deskhand.Json.Basic

/-!
# Writing JSON

The text of a JSON value: one blank after each comma and colon, and every character beyond printable
ASCII escaped, so that the text is ASCII.
-/

namespace Deskhand.Json

/-- The two halves that stand for a code point beyond the first 65536. -/
def surrogates (n : Nat) : Nat × Nat :=
  let offset := n - 0x10000
  (0xd800 + offset / 0x400, 0xdc00 + offset % 0x400)

/-- An escape with four digits in base sixteen. -/
def escapeUnit (n : Nat) : Text := "\\u".toList ++ Text.ofHex 4 n

/-- A character inside a string. -/
def escapeChar (c : Char) : Text :=
  if c == '"' then "\\\""
  else if c == '\\' then "\\\\"
  else if c == '\n' then "\\n"
  else if c == '\r' then "\\r"
  else if c == '\t' then "\\t"
  else if c == '\x0c' then "\\f"
  else if c == '\x08' then "\\b"
  else if ' ' ≤ c && c ≤ '~' then [c]
  else if c.toNat < 0x10000 then escapeUnit c.toNat
  else
    let (high, low) := surrogates c.toNat
    escapeUnit high ++ escapeUnit low

/-- A string with its quotes. -/
def writeText (t : Text) : Text := '"' :: t.flatMap escapeChar ++ ['"']

/-- The text of a binary number. -/
def writeFloat (x : Binary64) : Text :=
  match x with
  | .nan => "NaN"
  | .infinite false => "Infinity"
  | .infinite true => "-Infinity"
  | x => x.text

mutual

/-- The text of a value. -/
def write : Json → Text
  | .null => "null"
  | .bool b => if b then "true" else "false"
  | .int n => Text.ofInt n
  | .float x => writeFloat x
  | .text t => writeText t
  | .list items => '[' :: Text.join ", " (writeItems items) ++ [']']
  | .object fields => '\x7b' :: Text.join ", " (writeFields fields) ++ ['\x7d']

/-- The texts of the items of a list. -/
def writeItems : List Json → List Text
  | [] => []
  | v :: rest => write v :: writeItems rest

/-- The texts of the fields of an object. -/
def writeFields : List (Text × Json) → List Text
  | [] => []
  | (key, v) :: rest => (writeText key ++ ": ".toList ++ write v) :: writeFields rest

end

end Deskhand.Json
