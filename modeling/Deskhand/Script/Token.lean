import Deskhand.Script.Value
import Deskhand.Text.Identifier

/-!
# Tokens of expressions

An expression is cut into numbers, texts, names and signs. Blanks separate tokens and mean nothing
else; a number sign starts a comment; a line end means nothing inside brackets and ends the
expression outside.
-/

namespace Deskhand.Script

/-- A token. -/
inductive Token where
  | int (n : Nat)
  | float (x : Binary64)
  | text (t : Text)
  | name (t : Text)
  | sign (s : String)

namespace Token

/-- Characters that may belong to a name or a number. -/
def isWordChar (c : Char) : Bool := c.isAlphanum || c == '_' || 128 ≤ c.toNat

/-- Digits of a class, with single underscores between them; `none` if an underscore is not followed
by a digit. -/
def digitRun (isDigit : Char → Bool) : Text → Option (Text × Text)
  | [] => some ([], [])
  | '_' :: d :: rest =>
    if isDigit d then (digitRun isDigit rest).map fun (ds, r) ↦ (d :: ds, r) else none
  | c :: rest =>
    if isDigit c then (digitRun isDigit rest).map fun (ds, r) ↦ (c :: ds, r)
    else if c == '_' then none
    else some ([], c :: rest)

/-- Whether a number may end before this text: a word may follow it only if it begins like one of
the words that join expressions. -/
def mayFollowNumber (t : Text) : Bool :=
  match t with
  | [] => true
  | c :: _ =>
    ["and", "else", "for", "if", "in", "is", "or", "not"].any (Text.startsWith t ·)
      || !isWordChar c

/-- The number written by digits of a base. -/
def valueIn (base : Nat) (ds : Text) : Nat :=
  ds.foldl (fun acc c ↦ acc * base + (Number.digitIn c).getD 0) 0

/-- Digits of base sixteen. -/
def isHex (c : Char) : Bool :=
  c.isDigit || ('a' ≤ c && c ≤ 'f') || ('A' ≤ c && c ≤ 'F')

/-- The digits after `0x`, `0o` or `0b`, of which there is at least one. -/
def based (base : Nat) (isDigit : Char → Bool) (t : Text) : Option (Token × Text) :=
  match digitRun isDigit ('_' :: (if t.head? == some '_' then t.drop 1 else t)) with
  | some (ds, rest) =>
    if (rest.head?.map Char.isDigit).getD false then none
    else if mayFollowNumber rest then some (.int (valueIn base ds), rest) else none
  | none => none

/-- The exponent of a number, if a letter `e` with digits follows. The outer `none` is a broken
exponent, the inner one no exponent at all. -/
def exponent (t : Text) : Option (Option Int × Text) :=
  match t with
  | c :: rest =>
    if c == 'e' || c == 'E' then
      let (negative, body) := Number.takeSign rest
      let hasSign := body.length < rest.length
      if (body.head?.map Char.isDigit).getD false then
        (digitRun Char.isDigit body).map fun (ds, r) ↦
          (some (Number.signed negative (valueIn 10 ds)), r)
      else if hasSign then none
      else some (none, t)
    else some (none, t)
  | [] => some (none, t)

/-- What follows the whole part of a decimal number: a fraction, an exponent, both or nothing. A
whole number with leading zeros is refused unless it is zero. -/
def decimalAfter (whole : Text) (t : Text) : Option (Token × Text) := do
  let (isFloat, part, rest) ← match t with
    | '.' :: r =>
      if (r.head?.map Char.isDigit).getD false then
        (digitRun Char.isDigit r).map fun (ds, r) ↦ (true, ds, r)
      else some (true, [], r)
    | r => some (false, [], r)
  let (e, rest) ← exponent rest
  if !mayFollowNumber rest then none
  else
    match isFloat, e with
    | false, none =>
      let n := valueIn 10 whole
      if whole.head? == some '0' && n != 0 then none
      else if whole.length > Number.digitLimit then none
      else some (.int n, rest)
    | _, e =>
      some (.float (Number.ofDecimal false (valueIn 10 (whole ++ part)) (e.getD 0 - part.length)),
        rest)

/-- A number at the start of a text that begins with a digit, or a point and a digit. -/
def number (t : Text) : Option (Token × Text) :=
  match t with
  | '0' :: c :: rest =>
    if c == 'x' || c == 'X' then based 16 isHex rest
    else if c == 'o' || c == 'O' then based 8 (fun d ↦ '0' ≤ d && d ≤ '7') rest
    else if c == 'b' || c == 'B' then based 2 (fun d ↦ d == '0' || d == '1') rest
    else do
      let (whole, rest) ← digitRun Char.isDigit t
      decimalAfter whole rest
  | t => do
    let (whole, rest) ← digitRun Char.isDigit t
    decimalAfter whole rest

/-- The character with a given code, if there is one. -/
def charOf? (n : Nat) : Option Char := if n.isValidChar then some (Char.ofNat n) else none

/-- Exactly `count` digits of base sixteen, and the rest. -/
def hexChar (count : Nat) (t : Text) : Option (Char × Text) :=
  let ds := t.take count
  if ds.length == count && ds.all isHex then
    (charOf? (valueIn 16 ds)).map fun c ↦ (c, t.drop count)
  else none

/-- What an escape stands for, and the text after it. A backslash that starts no escape stands for
itself. -/
def escape (t : Text) : Option (Text × Text) :=
  match t with
  | [] => none
  | c :: rest =>
    match c with
    | '\n' => some ([], rest)
    | '\\' => some (['\\'], rest)
    | '\'' => some (['\''], rest)
    | '"' => some (['"'], rest)
    | 'a' => some ([Char.ofNat 7], rest)
    | 'b' => some ([Char.ofNat 8], rest)
    | 'f' => some ([Char.ofNat 12], rest)
    | 'n' => some (['\n'], rest)
    | 'r' => some (['\r'], rest)
    | 't' => some (['\t'], rest)
    | 'v' => some ([Char.ofNat 11], rest)
    | 'x' => (hexChar 2 rest).map fun (c, r) ↦ ([c], r)
    | 'u' => (hexChar 4 rest).map fun (c, r) ↦ ([c], r)
    | 'U' => (hexChar 8 rest).map fun (c, r) ↦ ([c], r)
    | 'N' => none
    | c =>
      if '0' ≤ c && c ≤ '7' then
        let ds := (t.take 3).takeWhile fun d ↦ '0' ≤ d && d ≤ '7'
        some ([Char.ofNat (valueIn 8 ds)], t.drop ds.length)
      else some (['\\', c], rest)

/-- The body of a text literal up to its closing quotes, and what follows them. A literal between
three quotes may hold line ends. -/
def textBody (quote : Char) (triple raw : Bool) : Nat → Text → Option (Text × Text)
  | 0, _ => none
  | _, [] => none
  | fuel + 1, c :: rest =>
    if triple && c == quote && rest.take 2 == [quote, quote] then some ([], rest.drop 2)
    else if !triple && c == quote then some ([], rest)
    else if !triple && c == '\n' then none
    else if c == '\\' then
      if raw then
        match rest with
        | d :: r => (textBody quote triple raw fuel r).map fun (t, r) ↦ (c :: d :: t, r)
        | [] => none
      else
        match escape rest with
        | some (e, r) => (textBody quote triple raw fuel r).map fun (t, r) ↦ (e ++ t, r)
        | none => none
    else (textBody quote triple raw fuel rest).map fun (t, r) ↦ (c :: t, r)

/-- A text literal, from its opening quote on. -/
def textLiteral (raw : Bool) (t : Text) : Option (Token × Text) :=
  match t with
  | q :: rest =>
    if rest.take 2 == [q, q] then
      (textBody q true raw (t.length + 1) (rest.drop 2)).map fun (t, r) ↦ (.text t, r)
    else (textBody q false raw (t.length + 1) rest).map fun (t, r) ↦ (.text t, r)
  | [] => none

/-- Whether a word may stand as a name. -/
def isName (w : Text) : Bool :=
  match w with
  | c :: rest => Text.isNameStart c && rest.all Text.isNameRest
  | [] => false

/-- A name, or a text literal with a letter in front of its quote. -/
def word (t : Text) : Option (Token × Text) :=
  let (w, rest) := t.span isWordChar
  let quoted := (rest.head?.map fun c ↦ c == '\'' || c == '"').getD false
  let letters := w.map Char.toLower
  if quoted && letters == ['r'] then textLiteral true rest
  else if quoted && letters == ['u'] then textLiteral false rest
  else if quoted && ["b", "f", "br", "rb", "fr", "rf"].any (letters == ·.toList) then none
  else if isName w then some (.name w, rest)
  else none

/-- All signs, longer ones first. -/
def signs : List String :=
  ["**=", "//=", ">>=", "<<=", "...", "**", "//", "<<", ">>", "==", "!=", "<=", ">=", "->", "+=",
    "-=", "*=", "/=", "%=", "&=", "|=", "@=", ":=", "(", ")", "[", "]", "\x7b", "\x7d", "+", "-",
    "*", "/", "%", "~", "&", "|", "<", ">", "=", ",", ".", ":", ";", "@"]

/-- The longest sign at the start of a text. -/
def signAt (t : Text) : Option (Token × Text) :=
  (signs.find? fun (s : String) ↦ Text.startsWith t s).map fun s ↦ (.sign s, t.drop s.length)

/-- The first token of a text that starts with none of blank, line end and comment. -/
def first (t : Text) : Option (Token × Text) :=
  match t with
  | [] => none
  | c :: rest =>
    if c.isDigit || (c == '.' && (rest.head?.map Char.isDigit).getD false) then number t
    else if c == '\'' || c == '"' then textLiteral false t
    else if isWordChar c then word t
    else signAt t

/-- Whether only blanks, comments and line ends are left. -/
def onlyBlankLines (comment : Bool) : Text → Bool
  | [] => true
  | c :: rest =>
    if c == '\n' then onlyBlankLines false rest
    else if comment || c == ' ' || c == '\t' || c == '\x0c' then onlyBlankLines comment rest
    else if c == '#' then onlyBlankLines true rest
    else false

/-- How many brackets are open after a token, at most two hundred. -/
def depthAfter (depth : Nat) : Token → Option Nat
  | .sign s =>
    if s == "(" || s == "[" || s == "\x7b" then if depth < 200 then some (depth + 1) else none
    else if s == ")" || s == "]" || s == "\x7d" then if depth == 0 then none else some (depth - 1)
    else some depth
  | _ => some depth

/-- The tokens of a text; `started` says that one was already found. -/
def scan (depth : Nat) (started : Bool) : Nat → Text → Option (List Token)
  | 0, _ => none
  | _, [] => some []
  | fuel + 1, c :: rest =>
    if c == ' ' || c == '\t' || c == '\x0c' then scan depth started fuel rest
    else if c == '#' then scan depth started fuel (rest.dropWhile (· != '\n'))
    else if c == '\n' then
      if depth > 0 then scan depth started fuel rest
      else if started then if onlyBlankLines false rest then some [] else none
      else
        -- a line before the first token may only be empty, and the next one is not indented
        match (rest.dropWhile (fun c ↦ c == ' ' || c == '\t')).head? with
        | some d =>
          if d == '\n' || d == '#' || (rest.head?.map fun c ↦ c != ' ' && c != '\t').getD true then
            scan depth started fuel rest
          else none
        | none => some []
    else if c == '\\' then
      match rest with
      | '\n' :: r => scan depth started fuel r
      | _ => none
    else
      match first (c :: rest) with
      | some (token, r) =>
        match depthAfter depth token with
        | some d => (scan d true fuel r).map (token :: ·)
        | none => none
      | none => none

/-- One line end for each carriage return, with or without a line feed after it. -/
def unifyLineEnds : Text → Text
  | '\r' :: '\n' :: rest => '\n' :: unifyLineEnds rest
  | '\r' :: rest => '\n' :: unifyLineEnds rest
  | c :: rest => c :: unifyLineEnds rest
  | [] => []

/-- The tokens of an expression. -/
def ofText? (t : Text) : Option (List Token) :=
  let t := unifyLineEnds (t.dropWhile fun c ↦ c == ' ' || c == '\t')
  scan 0 false (t.length + 1) t

end Token

end Deskhand.Script
