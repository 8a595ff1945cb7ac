/-!
# Texts

A text is a list of characters, so a length, a position or a cut counts code points. The
operations below are the ones every part of the assistant uses: looking for a part, replacing it,
splitting and joining.
-/

namespace Deskhand

/-- A text, one character after the other. -/
abbrev Text := List Char

instance : Coe String Text := ⟨String.toList⟩

namespace Text

/-- The text as a string, for output. -/
def str (t : Text) : String := String.ofList t

/-- Whether a character lies in one of the given stretches of code points. -/
def inRanges (ranges : Array (Nat × Nat)) (c : Char) : Bool :=
  ranges.any fun r ↦ r.1 ≤ c.toNat && c.toNat ≤ r.2

/-- Whether `t` begins with `start`. -/
def startsWith (t start : Text) : Bool := start.isPrefixOf t

/-- Whether `t` ends with `tail`. -/
def endsWith (t tail : Text) : Bool := tail.isSuffixOf t

/-- What follows `start`, for a text that begins with it. -/
def after? (start t : Text) : Option Text :=
  if start.isPrefixOf t then some (t.drop start.length) else none

/-- Where `part` first occurs in `t`, counted from `offset`. -/
def findFrom (part : Text) (offset : Nat) : Text → Option Nat
  | [] => if part.isEmpty then some offset else none
  | c :: rest =>
    if part.isPrefixOf (c :: rest) then some offset else findFrom part (offset + 1) rest

/-- Where `part` first occurs in `t`. -/
def position? (part t : Text) : Option Nat := findFrom part 0 t

/-- Whether `part` occurs in `t`. -/
def has (t part : Text) : Bool := (position? part t).isSome

/-- Whether one of `parts` occurs in `t`. -/
def hasAny (t : Text) (parts : List Text) : Bool := parts.any (has t)

/-- Replaces `old` by `new` from left to right, after passing over `skip` characters that belong to
an occurrence already replaced. -/
def replaceFrom (old new : Text) : Nat → Text → Text
  | _, [] => []
  | skip + 1, _ :: rest => replaceFrom old new skip rest
  | 0, c :: rest =>
    if old.isPrefixOf (c :: rest) then new ++ replaceFrom old new (old.length - 1) rest
    else c :: replaceFrom old new 0 rest

/-- Replaces every occurrence of `old`, which do not overlap, by `new`. The empty text occurs before
every character and at the end. -/
def replaceAll (t old new : Text) : Text :=
  if old.isEmpty then new ++ t.flatMap (fun c ↦ c :: new) else replaceFrom old new 0 t

/-- The pieces of a text between occurrences of `sep`; `piece` holds the current piece in reverse,
and `skip` characters still belong to the last separator. -/
def splitFrom (sep piece : Text) : Nat → Text → List Text
  | _, [] => [piece.reverse]
  | skip + 1, _ :: rest => splitFrom sep piece skip rest
  | 0, c :: rest =>
    if sep.isPrefixOf (c :: rest) then
      piece.reverse :: splitFrom sep [] (sep.length - 1) rest
    else splitFrom sep (c :: piece) 0 rest

/-- The pieces of a text between occurrences of a separator that is not empty. -/
def splitOn (t sep : Text) : List Text := splitFrom sep [] 0 t

/-- The texts one after the other, with `sep` between neighbours. -/
def join (sep : Text) (parts : List Text) : Text := sep.intercalate parts

/-- A text with the same mark before and after it. -/
def between (mark t : Text) : Text := mark ++ t ++ mark

/-- Drops the given characters at both ends. -/
def trimChars (drop : Char → Bool) (t : Text) : Text :=
  ((t.dropWhile drop).reverse.dropWhile drop).reverse

/-- Drops the given characters at the end. -/
def trimEnd (drop : Char → Bool) (t : Text) : Text := (t.reverse.dropWhile drop).reverse

/-- Whether `s` comes no later than `t` in the order of code points. -/
def notAfter (s t : Text) : Bool := !(t.map Char.toNat).lex (s.map Char.toNat) fun m n ↦ m < n

/-- Decimal digits of a natural number. -/
def ofNat (n : Nat) : Text := Nat.toDigits 10 n

/-- Decimal text of an integer. -/
def ofInt : Int → Text
  | .ofNat n => ofNat n
  | .negSucc n => '-' :: ofNat (n + 1)

/-- Digits in base sixteen, filled with zeros on the left up to `width`. -/
def ofHex (width n : Nat) : Text :=
  let digits := Nat.toDigits 16 n
  List.replicate (width - digits.length) '0' ++ digits

/-- Decimal digits, filled with zeros on the left up to `width`. -/
def ofNatPadded (width n : Nat) : Text :=
  let digits := ofNat n
  List.replicate (width - digits.length) '0' ++ digits

/-- Replacing in the empty text leaves it empty. -/
@[simp]
theorem replaceFrom_nil (old new : Text) (skip : Nat) : replaceFrom old new skip [] = [] := by
  cases skip <;> rfl

/-- Every text begins with the empty text. -/
@[simp]
theorem startsWith_nil (t : Text) : startsWith t [] = true := by
  simp [startsWith]

/-- A text begins with `start` exactly when it is `start` followed by something. -/
theorem startsWith_iff (t start : Text) :
    startsWith t start = true ↔ ∃ rest, t = start ++ rest := by
  simp only [startsWith, List.isPrefixOf_iff_prefix]
  exact ⟨fun ⟨r, h⟩ ↦ ⟨r, h.symm⟩, fun ⟨r, h⟩ ↦ ⟨r, h.symm⟩⟩

end Text

end Deskhand
