import Deskhand.Text.Basic

/-!
# Scanning a text

Finding something wherever it occurs in a text, from left to right and without overlap.
-/

namespace Deskhand.Text

variable {α : Type}

/-- What `find` finds in a text, from left to right. It is given the character before a place and the
text from there on, and answers with a finding and the number of characters it takes. `skip`
characters still belong to the last finding. -/
def scanFrom (find : Option Char → Text → Option (α × Nat)) (previous : Option Char) :
    Nat → Text → List α
  | _, [] => []
  | skip + 1, c :: rest => scanFrom find (some c) skip rest
  | 0, c :: rest =>
    match find previous (c :: rest) with
    | some (a, taken) => a :: scanFrom find (some c) (taken - 1) rest
    | none => scanFrom find (some c) 0 rest

/-- Everything that `find` finds in a text. -/
def scan (find : Option Char → Text → Option (α × Nat)) (t : Text) : List α :=
  scanFrom find none 0 t

/-- The first thing that `find` finds in a text. -/
def first? (find : Text → Option α) : Text → Option α
  | [] => none
  | c :: rest =>
    match find (c :: rest) with
    | some a => some a
    | none => first? find rest

/-- The characters before the first line feed. -/
def lineOf (t : Text) : Text := t.takeWhile (· != '\n')

end Deskhand.Text
