import Deskhand.Hid.Layout
import Deskhand.Script.Eval
import Deskhand.Script.KeyWords
import Deskhand.Table
import Deskhand.Text.Case
import Deskhand.Text.Word

/-!
# The state of a macro run

A run keeps variables, defined words, functions and a default delay, drives a keyboard and a media
keypad, and draws random numbers. It is given an allowance: room for events, and a number of draws.
-/

namespace Deskhand.Script

/-- Why a macro script fails. -/
inductive Fault where
  | device (fault : Hid.Fault)
  | expression (error : ExprError)
  | notInteger (error : Number.ReadError)
  /-- The random bounds leave no number to draw. -/
  | emptyRange (low high : Int)
  /-- The lines ended inside a block. -/
  | endOfLines
  | noFunctionName
  | badDeclaration (line : Text)
  | badAssignment (line : Text)
  /-- An expression raised something of its own, which may ask the program to exit. -/
  | raised (name message : Text) (exits : Bool)

namespace Fault

/-- The family of a fault. -/
def family : Fault → Family
  | .device fault => fault.family
  | .expression error => error.family
  | .notInteger _ => .value
  | .emptyRange .. => .value
  | .endOfLines => .endOfLines
  | .noFunctionName => .index
  | .badDeclaration _ => .grammar
  | .badAssignment _ => .grammar
  | .raised name .. => .other name

/-- The message for a fault. -/
def message : Fault → Text
  | .device fault => fault.message
  | .expression error => error.message
  | .notInteger error => error.message
  | .emptyRange low high =>
    "empty range for randrange() (".toList ++ Text.ofInt low ++ ", ".toList
      ++ Text.ofInt (high + 1) ++ ", ".toList ++ Text.ofInt (high + 1 - low) ++ ")".toList
  | .endOfLines => []
  | .noFunctionName => "list index out of range"
  | .badDeclaration line => "Invalid variable declaration: ".toList ++ line
  | .badAssignment line => "Invalid variable update, declare variable first: ".toList ++ line
  | .raised _ message _ => message

/-- Whether a fault asks the program to exit; nothing else gets past a message. -/
def exits : Fault → Bool
  | .raised _ _ exits => exits
  | _ => false

end Fault

/-- A source of random numbers, and how many may still be drawn. -/
structure Random where
  state : UInt64
  draws : Nat

/-- The state after one draw. -/
def Random.advance (state : UInt64) : UInt64 :=
  state * 6364136223846793005 + 1442695040888963407

/-- The state of a macro run. -/
structure Machine where
  «variables» : Table Value := [("$_RANDOM_MIN", .int 0), ("$_RANDOM_MAX", .int 65535)]
  /-- Names replaced by values that the run itself provides. -/
  internals : Table Value := []
  defines : Table Text := []
  functions : Table (List Text) := []
  defaultDelay : Int := 0
  keyboard : Hid.KeyReport := .empty
  media : Hid.MediaReport := .empty
  random : Random
  trace : Trace

/-- A fresh machine with the usual allowance. -/
def Machine.fresh (seed : UInt64) (room draws : Nat) : Machine where
  random := ⟨seed, draws⟩
  trace := { room }

/-- Work of a macro run. -/
abbrev Macro (α : Type) := EStateM (Halt Fault) Machine α

namespace Macro

variable {α : Type}

/-- Fails. -/
def fail (fault : Fault) : Macro α := throw (.failed fault)

/-- Goes on with a result, or fails. -/
def ofExcept {ε : Type} (f : ε → Fault) : Except ε α → Macro α
  | .ok a => pure a
  | .error e => fail (f e)

end Macro

/-- What the text of an expression means once its variables are replaced: a value, and whatever else
comes of computing it. An expression is computed with the variables at hand and may reach anything in
the program, so that it may change the state of the run and raise faults of its own. -/
class Evaluator where
  eval : Text → Macro Value

/-- Expressions as a calculator understands them, which change nothing. -/
instance Evaluator.calculator : Evaluator where
  eval t := Macro.ofExcept .expression (Script.evaluate t)

/-- What the calculator says is its value, or its failure. -/
theorem Evaluator.eval_calculator (t : Text) :
    calculator.eval t = Macro.ofExcept .expression (Script.evaluate t) := rfl

namespace Macro

variable {α : Type}

/-- Does work on the keyboard. -/
def onKeyboard (act : Act Hid.KeyReport α) : Macro α := fun m ↦
  match act ⟨m.keyboard, m.trace⟩ with
  | .ok a port => .ok a { m with keyboard := port.report, trace := port.trace }
  | .error halt port =>
    .error (halt.map .device) { m with keyboard := port.report, trace := port.trace }

/-- Does work on the media keypad. -/
def onMedia (act : Act Hid.MediaReport α) : Macro α := fun m ↦
  match act ⟨m.media, m.trace⟩ with
  | .ok a port => .ok a { m with media := port.report, trace := port.trace }
  | .error halt port =>
    .error (halt.map .device) { m with media := port.report, trace := port.trace }

/-- Prints a line. -/
def print (line : Text) : Macro Unit := onMedia (Act.emit (.print line))

/-- Makes a pause. -/
def pause (length : Except Hid.Fault Int) : Macro Unit := onMedia (Act.pause length)

/-- Draws a number below `n`, which is not zero. -/
def drawBelow (n : Nat) : Macro Nat := fun m ↦
  match m.random.draws with
  | 0 => .error .exhausted m
  | draws + 1 =>
    let state := Random.advance m.random.state
    .ok ((state >>> 33).toNat % n) { m with random := ⟨state, draws⟩ }

/-- The decimal text of an integer, unless it has too many digits. -/
def integerText (n : Int) : Macro Text :=
  match Number.intText? n with
  | some t => pure t
  | none => fail (.expression .tooManyDigits)

/-- Draws an integer between two bounds, both included. -/
def drawBetween (low high : Int) : Macro Int := do
  if high < low then fail (.emptyRange low high)
  else pure (low + (← drawBelow (high - low + 1).toNat))

/-- Draws a character of a text that is not empty. -/
def drawChar (pool : Text) : Macro Char := do
  let i ← drawBelow pool.length
  pure (pool.getD i ' ')

/-- Types a text on the keyboard (`sendString`). -/
def typeText (t : Text) : Macro Unit := onKeyboard (Hid.Layout.us.typeText none t)

/-- Presses and releases the enter key. -/
def typeEnter : Macro Unit := do
  onKeyboard (Hid.Keyboard.press [Hid.enterKey])
  onKeyboard (Hid.Keyboard.release [Hid.enterKey])

/-- The text of a value in a line. -/
def display (v : Value) : Macro Text :=
  match v.display? with
  | some t => pure t
  | none => fail (.expression .tooManyDigits)

/-- Replaces every name of a table by the text of its value, one name after the other. -/
def replaceNames (line : Text) : Table Value → Macro Text
  | [] => pure line
  | (name, v) :: rest => do
    let shown ← display v
    replaceNames (Text.replaceAll line name shown) rest

/-- Replaces the names of variables, then those of the internal ones, by their values
(`replaceVariables`). -/
def replaceVariables (line : Text) : Macro Text := do
  let line ← replaceNames line (← get).variables
  replaceNames line (← get).internals

/-- Replaces defined words by their values, one word after the other (`replaceDefines`). -/
def replaceDefines (line : Text) : Macro Text := do
  pure ((← get).defines.foldl (fun line (word, value) ↦ Text.replaceAll line word value) line)

/-- Replaces each `$name` of an expression by the text of the variable, or by zero if there is no
such variable. `name` holds the characters since a dollar sign, in reverse. -/
def substitute (values : Table Value) (name : Option Text) : Text → Option Text
  | [] =>
    match name with
    | none => some []
    | some [] => some ['$']
    | some w => value w.reverse
  | c :: rest =>
    match name with
    | none => if c == '$' then substitute values (some []) rest
      else (substitute values none rest).map (c :: ·)
    | some w =>
      if Text.isWord c then substitute values (some (c :: w)) rest
      else do
        let shown ← if w.isEmpty then some ['$'] else value w.reverse
        let rest ← if c == '$' then substitute values (some []) rest
          else (substitute values none rest).map (c :: ·)
        pure (shown ++ rest)
where
  value (w : Text) : Option Text :=
    match values.get? ('$' :: w) with
    | some v => v.display?
    | none => some ['0']

/-- The text that is evaluated for an expression: variables are replaced, the circumflex means a
power, and doubled signs mean `and` and `or`. -/
def expressionText (t : Text) : Text :=
  let t := Text.replaceAll t "^" "**"
  let t := Text.replaceAll t "&&" "and"
  Text.replaceAll t "||" "or"

/-- The value of an expression (`evaluateExpression`). -/
def evaluate [Evaluator] (t : Text) : Macro Value := do
  match substitute (← get).variables none t with
  | none => fail (.expression .tooManyDigits)
  | some t => Evaluator.eval (expressionText t)

/-- An integer bound of the random numbers. -/
def bound (name : Text) (otherwise : Int) : Macro Int := do
  match (← get).variables.get? name with
  | none => pure otherwise
  | some v =>
    match ← ofExcept .expression (toInteger v) with
    | .int n => pure n
    | _ => pure otherwise

/-- Trims a line and replaces the random number and the defined words in it. A number is drawn for
every line, whether or not the line uses it. -/
def prepare (line : Text) : Macro Text := do
  let low ← bound "$_RANDOM_MIN" 0
  let high ← bound "$_RANDOM_MAX" 65535
  let n ← drawBetween low high
  replaceDefines (Text.replaceAll (Text.trim line) "$_RANDOM_INT" (← integerText n))

/-- The keys a line names; a name that is none is reported and left out. -/
def keysOf : List Text → Macro (List Key)
  | [] => pure []
  | word :: rest => do
    let name := Text.upper word
    match Key.ofName? name with
    | some key => pure (key :: (← keysOf rest))
    | none =>
      print ("Unknown key: <".toList ++ name ++ ">".toList)
      keysOf rest

/-- The keys a line names, its words being separated by blanks (`convertLine`). -/
def keysOfLine (line : Text) : Macro (List Key) :=
  keysOf ((Text.splitOn line " ").filter (!·.isEmpty))

/-- Presses a key. -/
def pressKey : Key → Macro Unit
  | .key code => onKeyboard (Hid.Keyboard.press [code])
  | .media code => onMedia (Hid.Media.press code)

/-- Releases a key. -/
def releaseKey : Key → Macro Unit
  | .key code => onKeyboard (Hid.Keyboard.release [code])
  | .media _ => onMedia Hid.Media.release

/-- Presses the keys a line names in order, and releases them in reverse order (`runScriptLine`). -/
def pressLine (line : Text) : Macro Unit := do
  let keys ← keysOfLine line
  keys.forM pressKey
  keys.reverse.forM releaseKey

end Macro

end Deskhand.Script
