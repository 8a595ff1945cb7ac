import Deskhand.Json.Reader
import Deskhand.Text.Digit

/-!
# Character references

A page may write a character by its name or its number after an ampersand. Numbers from 128 to 159
stand for the characters that the Windows code page has there.
-/

namespace Deskhand.Html

/-- The characters that have a name. -/
def named : List (String × Char) :=
  [("amp", '&'), ("lt", '<'), ("gt", '>'), ("quot", '"'), ("nbsp", '\xa0'), ("copy", '©')]

/-- The character of a name. -/
def named? (name : Text) : Option Char :=
  (named.find? fun entry ↦ entry.1.toList == name).map Prod.snd

/-- The characters of the Windows code page from 128 on; zero where it has none. -/
def windowsPage : List Nat :=
  [0x20ac, 0, 0x201a, 0x0192, 0x201e, 0x2026, 0x2020, 0x2021, 0x02c6, 0x2030, 0x0160, 0x2039, 0x0152,
    0, 0x017d, 0, 0, 0x2018, 0x2019, 0x201c, 0x201d, 0x2022, 0x2013, 0x2014, 0x02dc, 0x2122, 0x0161,
    0x203a, 0x0153, 0, 0x017e, 0x0178]

/-- Whether a number is a code point of a character. -/
def isCodePoint (n : Nat) : Bool := n < 0xd800 || (0xe000 ≤ n && n < 0x110000)

/-- The character of a number. -/
def numbered (n : Nat) : Char :=
  if 128 ≤ n && n < 160 then
    match windowsPage.getD (n - 128) 0 with
    | 0 => Char.ofNat n
    | code => Char.ofNat code
  else if isCodePoint n then Char.ofNat n
  else Char.ofNat 0xfffd

/-- Whether a character is a digit in base sixteen. -/
def isHex (c : Char) : Bool := (Json.hexDigit? c).isSome

/-- The number written in base sixteen. -/
def hexValue (t : Text) : Nat := t.foldl (fun n c ↦ n * 16 + (Json.hexDigit? c).getD 0) 0

/-- The number after `#`, in base ten or after an `x` in base sixteen, and the rest. -/
def number? (t : Text) : Option (Nat × Text) :=
  let inHex (rest : Text) : Option (Nat × Text) :=
    let ds := rest.takeWhile isHex
    if ds.isEmpty then none else some (hexValue ds, rest.drop ds.length)
  match t with
  | 'x' :: rest => inHex rest
  | 'X' :: rest => inHex rest
  | t =>
    let ds := t.takeWhile Char.isDigit
    if ds.isEmpty then none else some (Text.digitsValue 0 ds, t.drop ds.length)

/-- Drops a semicolon. -/
def dropSemicolon : Text → Text
  | ';' :: rest => rest
  | t => t

/-- Whether a character may stand in a name. -/
def isNameChar (c : Char) : Bool := c.isAlphanum || c == '-' || c == '.'

/-- The text that a reference after an ampersand stands for, and the rest. Something has to follow
it. A name that is not known stands for itself. -/
def reference? : Text → Option (Text × Text)
  | '#' :: t =>
    match number? t with
    | some (_, []) => none
    | some (n, c :: rest) => if isHex c then none else some ([numbered n], dropSemicolon (c :: rest))
    | none => none
  | t =>
    let name := t.takeWhile isNameChar
    match (t.head?.map Char.isAlpha).getD false, t.drop name.length with
    | false, _ => none
    | _, [] => none
    | true, rest =>
      some (((named? name).map fun c ↦ [c]).getD ('&' :: name), dropSemicolon rest)

/-- The text that a numbered reference in an attribute stands for. -/
def attributeNumber (n : Nat) : Text :=
  if n == 0 then [Char.ofNat 0xfffd]
  else if n < 9 || n == 11 || (14 ≤ n && n < 32) || n == 127 then []
  else [numbered n]

/-- The named reference at the start of a text after an ampersand, and the rest. It needs no
semicolon. -/
def attributeName? (t : Text) : Option (Text × Text) :=
  named.findSome? fun (name, c) ↦ (Text.after? name t).map fun rest ↦ ([c], dropSemicolon rest)

/-- Replaces the references in an attribute, `fuel` bounding their number. -/
def unescape : Nat → Text → Text
  | 0, t => t
  | _ + 1, [] => []
  | fuel + 1, c :: rest =>
    if c == '&' then
      let found :=
        match rest with
        | '#' :: t => (number? t).map fun (n, r) ↦ (attributeNumber n, dropSemicolon r)
        | t => attributeName? t
      match found with
      | some (t, r) => t ++ unescape fuel r
      | none => '&' :: unescape fuel rest
    else c :: unescape fuel rest

end Deskhand.Html
