import Deskhand.Text.Blank
import Deskhand.Text.Case
import Deskhand.Text.Digit
import Deskhand.Text.Word

/-!
# Commands of macro scripts

What one line of a macro script asks for, as far as the line alone tells. The first rule that fits
decides, so a line that begins with `REM_BLOCK` opens a block although it also begins with `REM`.
A line that no rule fits names a function or keys; only the state of the run can tell which.
-/

namespace Deskhand.Script

/-- The characters a random command draws from. -/
inductive Pool where
  | lower | upper | letter | digit | special | any | hex | alphanumeric
  deriving DecidableEq

/-- The lower-case letters. -/
def lowerLetters : Text := "abcdefghijklmnopqrstuvwxyz"

/-- The upper-case letters. -/
def upperLetters : Text := "ABCDEFGHIJKLMNOPQRSTUVWXYZ"

/-- The digits. -/
def digits : Text := "0123456789"

/-- The signs on the digit keys. -/
def specials : Text := "!@#$%^&*()"

/-- The characters of a pool, in the order in which they are numbered. -/
def Pool.chars : Pool → Text
  | .lower => lowerLetters
  | .upper => upperLetters
  | .letter => lowerLetters ++ upperLetters
  | .digit => digits
  | .special => specials
  | .any => lowerLetters ++ upperLetters ++ digits ++ specials
  | .hex => "0123456789ABCDEF"
  | .alphanumeric => lowerLetters ++ upperLetters ++ digits

/-- What one line asks for. -/
inductive Command where
  /-- Nothing. -/
  | ignore
  /-- Skip lines up to the one that ends the remark. -/
  | skipBlock
  | hold (key : Text)
  | release (key : Text)
  /-- Wait; a line without a number waits not at all. -/
  | delay (milliseconds : Option Text)
  /-- Type the following lines up to the end mark, with the enter key after each if `enter`. -/
  | typeBlock (enter : Bool)
  | type (enter : Bool) (text : Text)
  | print (text : Text)
  | defaultDelay (number : Text)
  | assign (name expression : Text)
  /-- A declaration that is not well formed. -/
  | badDeclaration (line : Text)
  /-- An assignment that is not well formed. -/
  | badAssignment (line : Text)
  | define (name value : Text)
  /-- Store the following lines up to the end mark under a name, if one is given. -/
  | function (name : Option Text)
  | loop (guard : Text)
  /-- Type `count` characters drawn from a pool. -/
  | random (pool : Pool) (count : Nat)
  | releaseAll
  /-- Call a function or press keys. -/
  | other (line : Text)
  deriving DecidableEq

namespace Command

/-- The digits after `DELAY` and any blanks, if there are some. -/
def delayDigits? (line : Text) : Option Text :=
  match Text.after? "DELAY" line with
  | some rest =>
    let (ds, _) := Text.spanDigits (Text.trimLeft rest)
    if ds.isEmpty then none else some ds
  | none => none

/-- The characters before the first line feed. -/
def firstLine (t : Text) : Text := t.takeWhile (· != '\n')

/-- The name and the expression in `$name = expression`, blanks around the sign not counting. The
expression has at least one character and ends at a line feed. -/
def assignment? (t : Text) : Option (Text × Text) :=
  match t with
  | '$' :: rest =>
    let (name, rest) := Text.spanWord rest
    match Text.trimLeft rest with
    | '=' :: rest =>
      if name.isEmpty then none
      else
        -- blanks after the sign belong to the expression only where nothing else does
        let blanks := rest.takeWhile Text.isBlank
        let body := firstLine (rest.drop blanks.length)
        if !body.isEmpty then some (name, body)
        else
          (blanks.reverse.find? (· != '\n')).map fun c ↦ (name, [c])
    | _ => none
  | _ => none

/-- The assignment in a declaration. -/
def declaration? (line : Text) : Option (Text × Text) :=
  match Text.after? "VAR" line with
  | some rest =>
    if (rest.head?.map Text.isBlank).getD false then assignment? (Text.trimLeft rest) else none
  | none => none

/-- The name and the value of a definition: what stands between the first two blanks, and what
follows the second. With fewer blanks the value is the whole line, and the last character does not
count for the name. -/
def definition (line : Text) : Text × Text :=
  match line.span (· != ' ') with
  | (_, []) => (line.dropLast, line)
  | (_, _ :: rest) =>
    match rest.span (· != ' ') with
    | (_, []) => (rest.dropLast, line)
    | (name, _ :: value) => (name, value)

/-- The random commands. -/
def randoms : List (String × Pool × Nat) :=
  [("RANDOM_LOWERCASE_LETTER", .lower, 1), ("RANDOM_UPPERCASE_LETTER", .upper, 1),
    ("RANDOM_LETTER", .letter, 1), ("RANDOM_NUMBER", .digit, 1), ("RANDOM_SPECIAL", .special, 1),
    ("RANDOM_CHAR", .any, 1), ("VID_RANDOM", .hex, 4), ("PID_RANDOM", .hex, 4),
    ("MAN_RANDOM", .alphanumeric, 12), ("PROD_RANDOM", .alphanumeric, 12),
    ("SERIAL_RANDOM", .any, 12)]

/-- The command of a line from which surrounding blanks were taken (`parseLine`). -/
def ofLine (line : Text) : Command :=
  let starts (word : String) : Bool := Text.startsWith line word
  if starts "INJECT_MOD" then .ignore
  else if starts "REM_BLOCK" then .skipBlock
  else if starts "REM" then .ignore
  else if starts "HOLD" then .hold (Text.upper (Text.trim (line.drop 5)))
  else if starts "RELEASE" then .release (Text.upper (Text.trim (line.drop 8)))
  else if starts "DELAY" then .delay (delayDigits? line)
  else if line == "STRINGLN".toList then .typeBlock true
  else if starts "STRINGLN" then .type true (line.drop 9)
  else if line == "STRING".toList then .typeBlock false
  else if starts "STRING" then .type false (line.drop 7)
  else if starts "PRINT" then .print (line.drop 6)
  else if starts "IMPORT" then .ignore
  else if starts "DEFAULT_DELAY" then .defaultDelay (line.drop 14)
  else if starts "DEFAULTDELAY" then .defaultDelay (line.drop 13)
  else if starts "LED" then .ignore
  else if starts "WAIT_FOR_BUTTON_PRESS" then .ignore
  else if starts "VAR" then
    match declaration? line with
    | some (name, e) => .assign ('$' :: name) e
    | none => .badDeclaration line
  else if starts "$" then
    match assignment? line with
    | some (name, e) => .assign ('$' :: name) e
    | none => .badAssignment line
  else if starts "DEFINE" then
    let (name, value) := definition line
    .define name value
  else if starts "FUNCTION" then .function (Text.words line)[1]?
  else if starts "WHILE" then .loop (Text.trim (line.drop 5))
  else if Text.startsWith (Text.upper line) "IF" then .ignore
  else if Text.startsWith (Text.upper line) "END_IF" then .ignore
  else
    match randoms.find? fun entry ↦ entry.1.toList == line with
    | some (_, pool, count) => .random pool count
    | none => if line == "RESET".toList then .releaseAll else .other line

end Command

end Deskhand.Script
