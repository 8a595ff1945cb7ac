import Deskhand.Script.Arith
import Deskhand.Script.Token

/-!
# Expressions

The tree of an expression and how it is read from tokens. From loosest to tightest the levels are:
a choice between two expressions, `or`, `and`, `not`, comparisons, bit operators, shifts, sums,
products, signs, powers, and items, calls and atoms. Operators of one level group to the left,
powers to the right.
-/

namespace Deskhand.Script

/-- An expression. -/
inductive Expr where
  | literal (v : Value)
  | name (n : Text)
  | list (items : List Expr)
  | tuple (items : List Expr)
  | unary (op : UnaryOp) (e : Expr)
  | binary (op : BinaryOp) (a b : Expr)
  | not (e : Expr)
  | and (a b : Expr)
  | or (a b : Expr)
  | choice (ifTrue condition ifFalse : Expr)
  /-- A chain of comparisons, which holds if every neighbouring pair compares so. -/
  | chain (first : Expr) (rest : List (CompareOp × Expr))
  | index (e position : Expr)
  | call (f : Expr) (args : List Expr)

namespace Expr

/-- Levels of grouping, loosest first. -/
inductive Level where
  | choice | or | and | not | compare | bitOr | bitAnd | shift | sum | term | factor | power
  deriving DecidableEq

/-- The next tighter level. -/
def Level.tighter : Level → Level
  | .choice => .or
  | .or => .and
  | .and => .not
  | .not => .compare
  | .compare => .bitOr
  | .bitOr => .bitAnd
  | .bitAnd => .shift
  | .shift => .sum
  | .sum => .term
  | .term => .factor
  | .factor => .power
  | .power => .power

/-- The operator that joins two expressions at a level. -/
def joiner? (level : Level) (token : Token) : Option (Expr → Expr → Expr) :=
  match level, token with
  | .or, .name w => if w == "or".toList then some .or else none
  | .and, .name w => if w == "and".toList then some .and else none
  | .bitOr, .sign "|" => some (.binary .bitOr)
  | .bitAnd, .sign "&" => some (.binary .bitAnd)
  | .shift, .sign "<<" => some (.binary .shiftLeft)
  | .shift, .sign ">>" => some (.binary .shiftRight)
  | .sum, .sign "+" => some (.binary .add)
  | .sum, .sign "-" => some (.binary .sub)
  | .term, .sign "*" => some (.binary .mul)
  | .term, .sign "/" => some (.binary .div)
  | .term, .sign "//" => some (.binary .floorDiv)
  | .term, .sign "%" => some (.binary .mod)
  | _, _ => none

/-- Whether a token is the given word. -/
def isWord (token : Token) (w : String) : Bool :=
  match token with
  | .name n => n == w.toList
  | _ => false

/-- Whether a token is the given sign. -/
def isSign (token : Token) (s : String) : Bool :=
  match token with
  | .sign t => t == s
  | _ => false

/-- The comparison at the start of a list of tokens, and the rest. -/
def comparison? : List Token → Option (CompareOp × List Token)
  | .sign s :: rest =>
    match s with
    | "==" => some (.eq, rest)
    | "!=" => some (.ne, rest)
    | "<" => some (.lt, rest)
    | "<=" => some (.le, rest)
    | ">" => some (.gt, rest)
    | ">=" => some (.ge, rest)
    | _ => none
  | .name w :: rest =>
    if w == "in".toList then some (.isIn, rest)
    else if w == "not".toList then
      match rest with
      | t :: rest => if isWord t "in" then some (.notIn, rest) else none
      | [] => none
    else if w == "is".toList then
      match rest with
      | t :: rest' => if isWord t "not" then some (.notSame, rest') else some (.same, rest)
      | [] => some (.same, rest)
    else none
  | _ => none

/-- The sign in front of an expression. -/
def unary? : Token → Option UnaryOp
  | .sign "+" => some .plus
  | .sign "-" => some .minus
  | .sign "~" => some .invert
  | _ => none

/-- Words that are no names. -/
def reserved : List String :=
  ["and", "as", "assert", "async", "await", "break", "class", "continue", "def", "del", "elif",
    "else", "except", "finally", "for", "from", "global", "if", "import", "in", "is", "lambda",
    "nonlocal", "not", "or", "pass", "raise", "return", "try", "while", "with", "yield"]

/-- A word as an expression. -/
def ofWord? (w : Text) : Option Expr :=
  if w == "True".toList then some (.literal (.bool true))
  else if w == "False".toList then some (.literal (.bool false))
  else if w == "None".toList then some (.literal .none)
  else if reserved.any (w == ·.toList) then none
  else some (.name w)

/-- The text of neighbouring text literals, joined. -/
def joinTexts (t : Text) : List Token → Text × List Token
  | .text s :: rest => joinTexts (t ++ s) rest
  | rest => (t, rest)

mutual

/-- Reads an expression of a level. -/
def parse : Nat → Level → List Token → Option (Expr × List Token)
  | 0, _, _ => none
  | n + 1, level, tokens =>
    match level with
    | .choice =>
      match parse n .or tokens with
      | some (a, token :: rest) =>
        if isWord token "if" then
          match parse n .or rest with
          | some (c, token :: rest) =>
            if isWord token "else" then
              match parse n .choice rest with
              | some (b, rest) => some (.choice a c b, rest)
              | none => none
            else none
          | _ => none
        else some (a, token :: rest)
      | other => other
    | .not =>
      match tokens with
      | token :: rest =>
        if isWord token "not" then (parse n .not rest).map fun (e, r) ↦ (.not e, r)
        else parse n .compare tokens
      | [] => none
    | .compare =>
      match parse n .bitOr tokens with
      | some (first, rest) =>
        match parseChain n rest with
        | some ([], rest) => some (first, rest)
        | some (links, rest) => some (.chain first links, rest)
        | none => none
      | none => none
    | .factor =>
      match tokens with
      | token :: rest =>
        match unary? token with
        | some op => (parse n .factor rest).map fun (e, r) ↦ (.unary op e, r)
        | none => parse n .power tokens
      | [] => none
    | .power =>
      match parseAtom n tokens with
      | some (a, rest) =>
        match parseTail n a rest with
        | some (a, token :: rest) =>
          if isSign token "**" then
            (parse n .factor rest).map fun (b, r) ↦ (.binary .pow a b, r)
          else some (a, token :: rest)
        | other => other
      | none => none
    | level =>
      match parse n level.tighter tokens with
      | some (a, rest) => parseJoined n level a rest
      | none => none

/-- Reads the operators of a level and their right operands, grouping to the left. -/
def parseJoined : Nat → Level → Expr → List Token → Option (Expr × List Token)
  | 0, _, _, _ => none
  | _, _, a, [] => some (a, [])
  | n + 1, level, a, token :: rest =>
    match joiner? level token with
    | some join =>
      match parse n level.tighter rest with
      | some (b, rest) => parseJoined n level (join a b) rest
      | none => none
    | none => some (a, token :: rest)

/-- Reads the comparisons of a chain. -/
def parseChain : Nat → List Token → Option (List (CompareOp × Expr) × List Token)
  | 0, _ => none
  | n + 1, tokens =>
    match comparison? tokens with
    | some (op, rest) =>
      match parse n .bitOr rest with
      | some (e, rest) => (parseChain n rest).map fun (links, r) ↦ ((op, e) :: links, r)
      | none => none
    | none => some ([], tokens)

/-- Reads the items and calls that follow an atom. -/
def parseTail : Nat → Expr → List Token → Option (Expr × List Token)
  | 0, _, _ => none
  | _, e, [] => some (e, [])
  | n + 1, e, token :: rest =>
    if isSign token "[" then
      match parseItems n "]" rest with
      | some (items, comma, rest) =>
        match items, comma with
        | [], _ => none
        | [i], false => parseTail n (.index e i) rest
        | items, _ => parseTail n (.index e (.tuple items)) rest
      | none => none
    else if isSign token "(" then
      match parseItems n ")" rest with
      | some (args, _, rest) => parseTail n (.call e args) rest
      | none => none
    else some (e, token :: rest)

/-- Reads an atom: a number, a text, a name, or an expression in brackets. -/
def parseAtom : Nat → List Token → Option (Expr × List Token)
  | 0, _ => none
  | n + 1, tokens =>
    match tokens with
    | .int k :: rest => some (.literal (.int k), rest)
    | .float x :: rest => some (.literal (.float x), rest)
    | .text t :: rest =>
      let (t, rest) := joinTexts t rest
      some (.literal (.text t), rest)
    | .name w :: rest => (ofWord? w).map fun e ↦ (e, rest)
    | .sign "(" :: rest =>
      match parseItems n ")" rest with
      | some ([e], false, rest) => some (e, rest)
      | some (items, _, rest) => some (.tuple items, rest)
      | none => none
    | .sign "[" :: rest =>
      match parseItems n "]" rest with
      | some (items, _, rest) => some (.list items, rest)
      | none => none
    | _ => none

/-- Reads expressions between commas up to a closing sign, and tells whether a comma was read. -/
def parseItems : Nat → String → List Token → Option (List Expr × Bool × List Token)
  | 0, _, _ => none
  | _, _, [] => none
  | n + 1, close, token :: rest =>
    if isSign token close then some ([], false, rest)
    else
      match parse n .choice (token :: rest) with
      | some (e, next :: rest) =>
        if isSign next close then some ([e], false, rest)
        else if isSign next "," then
          (parseItems n close rest).map fun (items, _, r) ↦ (e :: items, true, r)
        else none
      | _ => none

end

/-- Reads expressions between commas up to the end of the tokens. -/
def parseAll (fuel : Nat) : Nat → List Token → Option (List Expr × Bool)
  | 0, _ => none
  | _, [] => some ([], false)
  | n + 1, tokens =>
    match parse fuel .choice tokens with
    | some (e, []) => some ([e], false)
    | some (e, token :: rest) =>
      if isSign token "," then (parseAll fuel n rest).map fun (items, _) ↦ (e :: items, true)
      else none
    | none => none

/-- The expression that a list of tokens writes; several between commas are a tuple. -/
def ofTokens? (tokens : List Token) : Option Expr :=
  match parseAll (20 * (tokens.length + 1)) (tokens.length + 1) tokens with
  | some ([], _) => none
  | some ([e], false) => some e
  | some (items, _) => some (.tuple items)
  | none => none

/-- The expression that a text writes. -/
def ofText? (t : Text) : Option Expr := (Token.ofText? t).bind ofTokens?

end Expr

end Deskhand.Script
