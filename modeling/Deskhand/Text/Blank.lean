import Deskhand.Text.Basic

/-!
# Blanks

The white space of Unicode 14: the blank and the tab, line and paragraph ends, the information
separators and the spacing characters of other scripts. Trimming and cutting into words use this
one class.
-/

namespace Deskhand.Text

/-- First and last code point of each stretch of white space, in order. -/
def blankRanges : Array (Nat × Nat) := #[
  (9, 13), (28, 32), (133, 133), (160, 160), (5760, 5760), (8192, 8202), (8232, 8233),
  (8239, 8239), (8287, 8287), (12288, 12288)]

/-- White space of any script. -/
def isBlank (c : Char) : Bool := inRanges blankRanges c

/-- Drops leading white space. -/
def trimLeft (t : Text) : Text := t.dropWhile isBlank

/-- Drops trailing white space. -/
def trimRight (t : Text) : Text := (t.reverse.dropWhile isBlank).reverse

/-- Drops white space at both ends. -/
def trim (t : Text) : Text := trimRight (trimLeft t)

/-- The words of a text, `word` holding the current one in reverse. -/
def wordsFrom (word : Text) : Text → List Text
  | [] => if word.isEmpty then [] else [word.reverse]
  | c :: rest =>
    if isBlank c then
      if word.isEmpty then wordsFrom [] rest else word.reverse :: wordsFrom [] rest
    else wordsFrom (c :: word) rest

/-- The parts of a text between runs of white space. -/
def words (t : Text) : List Text := wordsFrom [] t

/-- Replaces each run of white space by one blank; `inRun` says that the last character was one. -/
def collapseFrom (inRun : Bool) : Text → Text
  | [] => []
  | c :: rest =>
    if isBlank c then if inRun then collapseFrom true rest else ' ' :: collapseFrom true rest
    else c :: collapseFrom false rest

/-- Replaces each run of white space by one blank. -/
def collapse (t : Text) : Text := collapseFrom false t

/-- Nothing is left of the empty text. -/
@[simp]
theorem trim_nil : trim [] = [] := rfl

end Deskhand.Text
