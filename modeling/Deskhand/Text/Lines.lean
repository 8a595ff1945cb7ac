import Deskhand.Text.Basic

/-!
# Lines

A text is cut into lines at every line end Unicode knows, a carriage return followed by a line feed
being one. The line ends are dropped, and a line end at the very end opens no further line.
-/

namespace Deskhand.Text

/-- Characters that end a line: line feed, vertical tab, form feed, carriage return, the file, group
and record separators, next line, and the line and paragraph separators. -/
def isLineEnd (c : Char) : Bool :=
  (10 ≤ c.toNat && c.toNat ≤ 13) || (28 ≤ c.toNat && c.toNat ≤ 30) || c.toNat == 0x85
    || c.toNat == 0x2028 || c.toNat == 0x2029

/-- The lines of a text; `line` holds the current one in reverse, and `afterReturn` says that a line
feed now would still belong to the last line end. -/
def linesFrom (line : Text) (afterReturn : Bool) : Text → List Text
  | [] => if line.isEmpty then [] else [line.reverse]
  | c :: rest =>
    if afterReturn && c == '\n' then linesFrom [] false rest
    else if isLineEnd c then line.reverse :: linesFrom [] (c == '\r') rest
    else linesFrom (c :: line) false rest

/-- The lines of a text. -/
def lines (t : Text) : List Text := linesFrom [] false t

/-- The empty text has no lines. -/
@[simp]
theorem lines_nil : lines [] = [] := rfl

end Deskhand.Text
