import Deskhand.Text.CaseTable

/-!
# Upper, lower and title case

Full case mapping: one letter may become several. The one mapping that looks at its surroundings is
the Greek capital sigma, which at the end of a word becomes the final form.
-/

namespace Deskhand.Text

/-- The image of a letter under a table of runs. -/
def CaseRun.image? (n : Nat) (r : CaseRun) : Option Nat :=
  if r.first ≤ n && n ≤ r.last && (n - r.first) % r.step == 0 then some (n + r.shift).toNat
  else none

/-- The image of a character under a pair of case tables, itself if they do not list it. -/
def mapCase (runs : Array CaseRun) (many : List (Nat × List Nat)) (c : Char) : Text :=
  match runs.findSome? (CaseRun.image? c.toNat) with
  | some n => [Char.ofNat n]
  | none =>
    match many.lookup c.toNat with
    | some ns => ns.map Char.ofNat
    | none => [c]

/-- Upper case of one character. -/
def upperChar (c : Char) : Text :=
  if c.toNat < 128 then [c.toUpper] else mapCase upperRuns upperMany c

/-- Lower case of one character, away from the end of a word. -/
def lowerChar (c : Char) : Text :=
  if c.toNat < 128 then [c.toLower] else mapCase lowerRuns lowerMany c

/-- Title case of one character. -/
def titleChar (c : Char) : Text :=
  if c.toNat < 128 then [c.toUpper] else mapCase titleRuns titleMany c

/-- Letters that have a case. -/
def isCased (c : Char) : Bool :=
  if c.toNat < 128 then c.isAlpha else inRanges casedRanges c

/-- Characters that do not end a word for the rule on the final sigma. -/
def isCaseIgnorable (c : Char) : Bool := inRanges caseIgnorableRanges c

/-- Whether the first character that counts is a letter with case. -/
def meetsCased (t : Text) : Bool := ((t.dropWhile isCaseIgnorable).head?.map isCased).getD false

/-- Lower case of a character between `before`, in reverse, and `rest`. -/
def lowerBetween (before : Text) (c : Char) (rest : Text) : Text :=
  if c == 'Σ' then if meetsCased before && !meetsCased rest then ['ς'] else ['σ']
  else lowerChar c

/-- Lower case of a text that follows `before`, in reverse. -/
def lowerFrom (before : Text) : Text → Text
  | [] => []
  | c :: rest => lowerBetween before c rest ++ lowerFrom (c :: before) rest

/-- Lower case. -/
def lower (t : Text) : Text := lowerFrom [] t

/-- Upper case. -/
def upper (t : Text) : Text := t.flatMap upperChar

/-- Title case of a text that follows `before`, in reverse. -/
def titleFrom (before : Text) : Text → Text
  | [] => []
  | c :: rest =>
    let inWord := (before.head?.map isCased).getD false
    (if inWord then lowerBetween before c rest else titleChar c) ++ titleFrom (c :: before) rest

/-- Each word with its first letter in title case and the others in lower case. -/
def title (t : Text) : Text := titleFrom [] t

/-- The first character in title case and the others in lower case. -/
def capitalize : Text → Text
  | [] => []
  | c :: rest => titleChar c ++ lowerFrom [c] rest

end Deskhand.Text
