import Deskhand.Number.Shortest
import Deskhand.Text.Quoted

/-!
# Results of benchmarks

What a benchmark may return, with the name of its kind and the text that shows it.
-/

namespace Deskhand.Bench

/-- The kind of a sequence of bytes. -/
inductive BytesKind where
  | fixed
  | growing
  | view
  deriving DecidableEq

/-- The kind of an array's cells. -/
inductive CellKind where
  | signed (width : Nat)
  | unsigned (width : Nat)
  | truth
  | binary
  deriving DecidableEq

/-- The code of a kind of cells: the order of bytes, a letter and the width. -/
def CellKind.code : CellKind → Text
  | .signed width => (if width ≤ 1 then "|i" else "<i" : String).toList ++ Text.ofNat width
  | .unsigned width => (if width ≤ 1 then "|u" else "<u" : String).toList ++ Text.ofNat width
  | .truth => "|b1"
  | .binary => "<f8"

/-- A number as bytes, the lowest first. -/
def littleEndian (n : Nat) : Nat → List UInt8
  | 0 => []
  | width + 1 => (n % 256).toUInt8 :: littleEndian (n / 256) width

/-- A cell's content. -/
inductive Cell where
  | whole (n : Int)
  | binary (x : Binary64)

/-- The bytes of a cell. -/
def CellKind.bytes : CellKind → Cell → List UInt8
  | .signed width, .whole n => littleEndian (n.emod (Nat.pow 256 width)).toNat width
  | .unsigned width, .whole n => littleEndian (n.emod (Nat.pow 256 width)).toNat width
  | .truth, .whole n => [if n == 0 then 0 else 1]
  | .binary, .whole n => littleEndian (Binary64.ofInt n).toBits.toNat 8
  | .binary, .binary x => littleEndian x.toBits.toNat 8
  | _, .binary _ => []

/-- A number takes as many bytes as it is wide. -/
@[simp]
theorem length_littleEndian (n width : Nat) : (littleEndian n width).length = width := by
  induction width generalizing n with
  | zero => rfl
  | succ width ih => simp [littleEndian, ih]

/-- A result. -/
inductive Value where
  | none
  | bool (b : Bool)
  | int (n : Int)
  | float (x : Binary64)
  | complex (re im : Binary64)
  | text (t : Text)
  | bytes (kind : BytesKind) (data : List UInt8)
  | list (items : List Value)
  | tuple (items : List Value)
  | set (frozen : Bool) (items : List Value)
  | mapping (entries : List (Value × Value))
  | date (year month day : Nat)
  | time (hour minute second : Nat)
  | span (days seconds : Int)
  | decimal (t : Text)
  | fraction (num den : Int)
  | path (t : Text)
  | uuid (digits : Text)
  | object
  | type
  | array (kind : CellKind) (shape : List Nat) (cells : List Cell)
  deriving Inhabited

namespace Value

/-- The name of a result's kind. -/
def kindName : Value → Text
  | .none => "NoneType"
  | .bool _ => "bool"
  | .int _ => "int"
  | .float _ => "float"
  | .complex .. => "complex"
  | .text _ => "str"
  | .bytes .fixed _ => "bytes"
  | .bytes .growing _ => "bytearray"
  | .bytes .view _ => "memoryview"
  | .list _ => "list"
  | .tuple _ => "tuple"
  | .set frozen _ => if frozen then "frozenset" else "set"
  | .mapping _ => "dict"
  | .date .. => "date"
  | .time .. => "time"
  | .span .. => "timedelta"
  | .decimal _ => "Decimal"
  | .fraction .. => "Fraction"
  | .path _ => "PurePosixPath"
  | .uuid _ => "UUID"
  | .object => "object"
  | .type => "type"
  | .array .. => "ndarray"

/-- A name followed by arguments in brackets. -/
def application (name : String) (arguments : List Text) : Text :=
  name.toList ++ '(' :: Text.join ", " arguments ++ [')']

/-- The text of a length of time. -/
def spanText (days seconds : Int) : Text :=
  let total := days * 86400 + seconds
  let days := total.fdiv 86400
  let seconds := total.fmod 86400
  let part (name : String) (n : Int) : List Text :=
    if n == 0 then [] else [name.toList ++ '=' :: Text.ofInt n]
  match part "days" days ++ part "seconds" seconds with
  | [] => "datetime.timedelta(0)"
  | parts => application "datetime.timedelta" parts

/-- The text of a fraction in lowest terms. -/
def fractionText (num den : Int) : Text :=
  let g := max 1 (Int.gcd num den)
  let sign : Int := if den < 0 then -1 else 1
  application "Fraction" [Text.ofInt (sign * num / g), Text.ofInt (sign * den / g)]

/-- The name of a file without empty parts and steps on the spot. -/
def tidyPath (t : Text) : Text :=
  let parts := (Text.splitOn t "/").filter fun p ↦ !p.isEmpty && p != ".".toList
  let body := Text.join "/" parts
  if t.head? == some '/' then '/' :: body else if body.isEmpty then "." else body

/-- Thirty-two digits in their five groups. -/
def grouped (digits : Text) : Text :=
  Text.join "-" [digits.take 8, (digits.drop 8).take 4, (digits.drop 12).take 4,
    (digits.drop 16).take 4, digits.drop 20]

/-- The text of a byte between quotes. -/
def byteText (b : UInt8) : Text :=
  let c := Char.ofNat b.toNat
  if c == '\\' || c == '\'' then ['\\', c]
  else if c == '\n' then "\\n"
  else if c == '\r' then "\\r"
  else if c == '\t' then "\\t"
  else if 32 ≤ b.toNat && b.toNat < 127 then [c]
  else "\\x".toList ++ Text.ofHex 2 b.toNat

/-- The text of bytes. -/
def bytesText (data : List UInt8) : Text := "b'".toList ++ data.flatMap byteText ++ ['\'']

/-- The text of a shape. -/
def shapeText : List Nat → Text
  | [n] => '(' :: Text.ofNat n ++ ",)".toList
  | shape => '(' :: Text.join ", " (shape.map Text.ofNat) ++ [')']

mutual

/-- The text that shows a result. -/
def shown : Value → Text
  | .none => "None"
  | .bool b => if b then "True" else "False"
  | .int n => Text.ofInt n
  | .float x => x.text
  | .complex re im =>
    '(' :: re.text ++ (if im.isNegative then [] else ['+']) ++ im.text ++ "j)".toList
  | .text t => Text.quoted t
  | .bytes .fixed data => bytesText data
  | .bytes .growing data => application "bytearray" [bytesText data]
  | .bytes .view _ => "<memory>"
  | .list items => '[' :: Text.join ", " (shownItems items) ++ [']']
  | .tuple items =>
    '(' :: Text.join ", " (shownItems items)
      ++ (if items.length == 1 then ",)" else ")" : String).toList
  | .set frozen items =>
    let body :=
      if items.isEmpty then [] else '\x7b' :: Text.join ", " (shownItems items) ++ ['\x7d']
    if frozen then application "frozenset" [body]
    else if items.isEmpty then "set()" else body
  | .mapping entries => '\x7b' :: Text.join ", " (shownEntries entries) ++ ['\x7d']
  | .date year month day => application "datetime.date" ([year, month, day].map Text.ofNat)
  | .time hour minute second =>
    application "datetime.time"
      (([hour, minute] ++ if second == 0 then [] else [second]).map Text.ofNat)
  | .span days seconds => spanText days seconds
  | .decimal t => application "Decimal" [Text.quoted t]
  | .fraction num den => fractionText num den
  | .path t => application "PurePosixPath" [Text.quoted (tidyPath t)]
  | .uuid digits => application "UUID" [Text.quoted (grouped digits)]
  | .object => "<builtins.object>"
  | .type => "<builtins.type>"
  | .array _ shape _ => application "array" [shapeText shape]

/-- The texts that show results. -/
def shownItems : List Value → List Text
  | [] => []
  | v :: rest => shown v :: shownItems rest

/-- The texts that show entries. -/
def shownEntries : List (Value × Value) → List Text
  | [] => []
  | (k, v) :: rest => (shown k ++ ": ".toList ++ shown v) :: shownEntries rest

end

/-- The text a result has within a label: a text is itself, any other result is shown. -/
def display : Value → Text
  | .text t => t
  | v => shown v

end Value

end Deskhand.Bench
