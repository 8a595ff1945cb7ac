import Deskhand.Json.Basic
import Deskhand.Number.Reading

/-!
# Reading JSON

A text is read as a JSON value from left to right. Besides the standard forms `NaN`, `Infinity` and
`-Infinity` are numbers. Where a name occurs twice in an object, the second value stands in the place
of the first. A failure carries the part of the text that it stopped at, which gives its position.
-/

namespace Deskhand.Json

/-- What is wrong with a text that is not JSON. -/
inductive Flaw where
  | noValue
  | noName
  | noColon
  | noComma
  | openString
  | controlCharacter
  | badEscape
  | badUnit
  | extraText
  | byteOrderMark
  deriving DecidableEq

/-- The message for a flaw, without its position. -/
def Flaw.message : Flaw → Text
  | .noValue => "Expecting value"
  | .noName => "Expecting property name enclosed in double quotes"
  | .noColon => "Expecting ':' delimiter"
  | .noComma => "Expecting ',' delimiter"
  | .openString => "Unterminated string starting at"
  | .controlCharacter => "Invalid control character at"
  | .badEscape => "Invalid \\escape"
  | .badUnit => "Invalid \\uXXXX escape"
  | .extraText => "Extra data"
  | .byteOrderMark => "Unexpected UTF-8 BOM (decode using utf-8-sig)"

/-- Why a text, or the rest of one, is not read as JSON. -/
inductive Stop where
  /-- A flaw, and the text from there on. -/
  | flaw (flaw : Flaw) (rest : Text)
  /-- An integer has too many digits. -/
  | number (error : Number.ReadError)
  deriving DecidableEq

/-- Why a text is not read as JSON. -/
inductive ReadError where
  /-- A flaw, and the text in front of it. -/
  | flaw (flaw : Flaw) (before : Text)
  | number (error : Number.ReadError)
  deriving DecidableEq

/-- The message for a text that is not JSON. -/
def ReadError.message : ReadError → Text
  | .flaw cause before =>
    let line := before.count '\n' + 1
    let column := (before.reverse.takeWhile (· != '\n')).length + 1
    cause.message ++ ": line ".toList ++ Text.ofNat line ++ " column ".toList ++ Text.ofNat column
      ++ " (char ".toList ++ Text.ofNat before.length ++ ")".toList
  | .number error => error.message

/-- Blanks between the parts of a value. -/
def isGap (c : Char) : Bool := c == ' ' || c == '\t' || c == '\n' || c == '\r'

/-- Drops blanks. -/
def skipGap (t : Text) : Text := t.dropWhile isGap

/-- The value of a digit in base sixteen. -/
def hexDigit? (c : Char) : Option Nat :=
  if '0' ≤ c && c ≤ '9' then some (c.toNat - 48)
  else if 'a' ≤ c && c ≤ 'f' then some (c.toNat - 87)
  else if 'A' ≤ c && c ≤ 'F' then some (c.toNat - 55)
  else none

/-- The number of four digits in base sixteen. -/
def unit? (a b c d : Char) : Option Nat :=
  match hexDigit? a, hexDigit? b, hexDigit? c, hexDigit? d with
  | some a, some b, some c, some d => some (((a * 16 + b) * 16 + c) * 16 + d)
  | _, _, _, _ => none

/-- The character of a unit that is not the first half of a pair. Texts hold characters only, and half
a pair is none, so it gives the replacement character: two texts that differ in such halves alone are
not told apart. -/
def ofUnit (n : Nat) : Char :=
  if 0xd800 ≤ n && n < 0xe000 then Char.ofNat 0xfffd else Char.ofNat n

/-- The character of two halves. -/
def ofSurrogates (high low : Nat) : Char :=
  Char.ofNat (0x10000 + (high - 0xd800) * 0x400 + (low - 0xdc00))

/-- The character of an escape with one letter. -/
def escaped? (c : Char) : Option Char :=
  if c == '"' || c == '\\' || c == '/' then some c
  else if c == 'b' then some '\x08'
  else if c == 'f' then some '\x0c'
  else if c == 'n' then some '\n'
  else if c == 'r' then some '\r'
  else if c == 't' then some '\t'
  else none

/-- The second half of a pair in front of a text that goes on after it. -/
def lowHalf? : Text → Option Nat
  | '\\' :: 'u' :: a :: b :: c :: d :: _ :: _ =>
    (unit? a b c d).filter fun n ↦ 0xdc00 ≤ n && n < 0xe000
  | _ => none

/-- Reads the characters of a string up to its closing quote, after passing over `skip` characters
already read. `start` is the text from the opening quote on. -/
def stringFrom (start : Text) : Nat → Text → Except Stop (Text × Text)
  | _, [] => .error (.flaw .openString start)
  | skip + 1, _ :: rest => stringFrom start skip rest
  | 0, c :: rest =>
    let followedBy (c : Char) (r : Except Stop (Text × Text)) : Except Stop (Text × Text) :=
      r.map fun (t, rest) ↦ (c :: t, rest)
    if c == '"' then .ok ([], rest)
    else if c == '\\' then
      match rest with
      | [] => .error (.flaw .openString start)
      | e :: more =>
        if e == 'u' then
          match more with
          | a :: b :: c :: d :: next :: after =>
            match unit? a b c d with
            | none => .error (.flaw .badUnit rest)
            | some n =>
              if 0xd800 ≤ n && n < 0xdc00 then
                match lowHalf? (next :: after) with
                | some low => followedBy (ofSurrogates n low) (stringFrom start 11 rest)
                | none => followedBy (ofUnit n) (stringFrom start 5 rest)
              else followedBy (ofUnit n) (stringFrom start 5 rest)
          | _ => .error (.flaw .badUnit rest)
        else
          match escaped? e with
          | some e => followedBy e (stringFrom start 1 rest)
          | none => .error (.flaw .badEscape (c :: rest))
    else if c ≤ '\x1f' then .error (.flaw .controlCharacter (c :: rest))
    else followedBy c (stringFrom start 0 rest)

/-- Reads a string, given the text after its opening quote. -/
def string (rest : Text) : Except Stop (Text × Text) := stringFrom ('"' :: rest) 0 rest

/-- The longest run of ASCII digits. -/
def spanDigits (t : Text) : Text × Text := t.span Char.isDigit

/-- A fraction, or nothing. -/
def fraction (t : Text) : Text × Text :=
  match t with
  | '.' :: rest =>
    let (ds, after) := spanDigits rest
    if ds.isEmpty then ([], t) else ('.' :: ds, after)
  | t => ([], t)

/-- An exponent, or nothing. -/
def exponent (t : Text) : Text × Text :=
  match t with
  | [] => ([], t)
  | e :: rest =>
    if e == 'e' || e == 'E' then
      let (sign, rest) :=
        match rest with
        | '+' :: r => (['+'], r)
        | '-' :: r => (['-'], r)
        | r => ([], r)
      let (ds, after) := spanDigits rest
      if ds.isEmpty then ([], t) else (e :: sign ++ ds, after)
    else ([], t)

/-- Reads a number. A zero in front of further digits is a number of its own. -/
def number (t : Text) : Except Stop (Json × Text) :=
  let (negative, body) :=
    match t with
    | '-' :: rest => (true, rest)
    | t => (false, t)
  let (whole, rest) :=
    match body with
    | '0' :: rest => (['0'], rest)
    | body => spanDigits body
  if whole.isEmpty then .error (.flaw .noValue t)
  else
    let (part, rest) := fraction rest
    let (power, rest) := exponent rest
    if part.isEmpty && power.isEmpty then
      match Number.readInt whole with
      | .ok n => .ok (.int (if negative then -n else n), rest)
      | .error e => .error (.number e)
    else
      match Number.readUnsigned negative (whole ++ part ++ power) with
      | some x => .ok (.float x, rest)
      | none => .error (.flaw .noValue t)

/-- The values written by a word. -/
def words : List (String × Json) :=
  [("null", .null), ("true", .bool true), ("false", .bool false), ("NaN", .float .nan),
    ("Infinity", .float (.infinite false)), ("-Infinity", .float (.infinite true))]

/-- Reads a word or a number. -/
def scalar (t : Text) : Except Stop (Json × Text) :=
  match words.findSome? fun (word, v) ↦ (Text.after? word t).map (v, ·) with
  | some found => .ok found
  | none => number t

mutual

/-- Reads a value at the start of a text. -/
def value : Nat → Text → Except Stop (Json × Text)
  | 0, t => .error (.flaw .noValue t)
  | fuel + 1, t =>
    match t with
    | '"' :: rest => (string rest).map fun (s, rest) ↦ (.text s, rest)
    | '\x7b' :: rest =>
      match skipGap rest with
      | '\x7d' :: rest => .ok (.object [], rest)
      | rest => members fuel [] rest
    | '[' :: rest =>
      match skipGap rest with
      | ']' :: rest => .ok (.list [], rest)
      | rest => elements fuel [] rest
    | t => scalar t

/-- Reads the fields of an object up to its end, `fields` being those before. -/
def members : Nat → Table Json → Text → Except Stop (Json × Text)
  | 0, _, t => .error (.flaw .noName t)
  | fuel + 1, fields, t =>
    match t with
    | '"' :: rest => do
      let (key, rest) ← string rest
      match skipGap rest with
      | ':' :: rest => do
        let (v, rest) ← value fuel (skipGap rest)
        match skipGap rest with
        | '\x7d' :: rest => .ok (.object (Table.put fields key v), rest)
        | ',' :: rest => members fuel (Table.put fields key v) (skipGap rest)
        | rest => .error (.flaw .noComma rest)
      | rest => .error (.flaw .noColon rest)
    | t => .error (.flaw .noName t)

/-- Reads the items of a list up to its end, `items` being those before, in reverse. -/
def elements : Nat → List Json → Text → Except Stop (Json × Text)
  | 0, _, t => .error (.flaw .noValue t)
  | fuel + 1, items, t => do
    let (v, rest) ← value fuel t
    match skipGap rest with
    | ']' :: rest => .ok (.list (v :: items).reverse, rest)
    | ',' :: rest => elements fuel (v :: items) (skipGap rest)
    | rest => .error (.flaw .noComma rest)

end

/-- Reads a whole text, blanks around the value apart. Each level of depth takes a character and two
steps, so the length of the text bounds the number of steps. -/
def readAll (t : Text) : Except Stop Json :=
  if t.head? == some '\ufeff' then .error (.flaw .byteOrderMark t)
  else do
    let (v, rest) ← value (2 * t.length + 2) (skipGap t)
    match skipGap rest with
    | [] => .ok v
    | rest => .error (.flaw .extraText rest)

/-- Reads a whole text as a JSON value. -/
def read (t : Text) : Except ReadError Json :=
  match readAll t with
  | .ok v => .ok v
  | .error (.flaw cause rest) => .error (.flaw cause (t.take (t.length - rest.length)))
  | .error (.number e) => .error (.number e)

end Deskhand.Json
