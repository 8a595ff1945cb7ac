import Deskhand.Text.Printable

/-!
# Quoted texts

The form in which a text is shown inside a message or a list: between single quotes, or double ones
if it holds a single quote and no double one. The quote and the backslash are escaped, and so is
every character that does not print.
-/

namespace Deskhand.Text

/-- The quote put around a text. -/
def quoteFor (t : Text) : Char :=
  if t.any (· == '\'') && !t.any (· == '"') then '"' else '\''

/-- One character of a quoted text. -/
def quoteChar (quote c : Char) : Text :=
  if c == quote || c == '\\' then ['\\', c]
  else if c == '\t' then "\\t".toList
  else if c == '\n' then "\\n".toList
  else if c == '\r' then "\\r".toList
  else if isPrintable c then [c]
  else if c.toNat < 0x100 then "\\x".toList ++ ofHex 2 c.toNat
  else if c.toNat < 0x10000 then "\\u".toList ++ ofHex 4 c.toNat
  else "\\U".toList ++ ofHex 8 c.toNat

/-- The text between quotes, with escapes. -/
def quoted (t : Text) : Text :=
  let q := quoteFor t
  q :: t.flatMap (quoteChar q) ++ [q]

end Deskhand.Text
