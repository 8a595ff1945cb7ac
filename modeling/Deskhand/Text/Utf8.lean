import Deskhand.Text.Basic

/-!
# Texts as bytes

UTF-8 read one byte at a time. A first byte says how many bytes are owed and within which bounds the
next one has to lie, which rules out characters written longer than needed, halves of pairs and
numbers beyond the last code point. A failure tells where the bytes of the character stand that could
not be read.
-/

namespace Deskhand.Text

/-- Why bytes are not a text. -/
inductive Utf8Cause where
  | badStart
  | badContinuation
  | openEnd
  deriving DecidableEq

/-- Where and why bytes are not a text. -/
structure Utf8Error where
  cause : Utf8Cause
  first : UInt8
  position : Nat
  count : Nat
  deriving DecidableEq

/-- The words for a cause. -/
def Utf8Cause.message : Utf8Cause → Text
  | .badStart => "invalid start byte"
  | .badContinuation => "invalid continuation byte"
  | .openEnd => "unexpected end of data"

/-- The message for bytes that are not a text. -/
def Utf8Error.message (e : Utf8Error) : Text :=
  "'utf-8' codec can't decode byte".toList
    ++ (if e.count == 1 then
      " 0x".toList ++ ofHex 2 e.first.toNat ++ " in position ".toList ++ ofNat e.position
    else
      "s in position ".toList ++ ofNat e.position ++ "-".toList ++ ofNat (e.position + e.count - 1))
    ++ ": ".toList ++ e.cause.message

/-- A character of which some bytes are owed. -/
structure Pending where
  first : UInt8
  taken : Nat
  owed : Nat
  low : Nat := 0x80
  high : Nat := 0xbf
  value : Nat

/-- What a first byte announces: a character of its own, or one that is pending. -/
def Pending.start (b : UInt8) : Option (Char ⊕ Pending) :=
  let n := b.toNat
  let opens (owed value low high : Nat) : Option (Char ⊕ Pending) :=
    some (.inr { first := b, taken := 1, owed, low, high, value })
  if n < 0x80 then some (.inl (Char.ofNat n))
  else if n < 0xc2 then none
  else if n < 0xe0 then opens 1 (n - 0xc0) 0x80 0xbf
  else if n < 0xf0 then
    opens 2 (n - 0xe0) (if n == 0xe0 then 0xa0 else 0x80) (if n == 0xed then 0x9f else 0xbf)
  else if n < 0xf5 then
    opens 3 (n - 0xf0) (if n == 0xf0 then 0x90 else 0x80) (if n == 0xf4 then 0x8f else 0xbf)
  else none

/-- The characters of bytes from a position on, `pending` being the character under way. -/
def decodeFrom (position : Nat) (pending : Option Pending) : List UInt8 → Except Utf8Error Text
  | [] =>
    match pending with
    | none => .ok []
    | some p => .error ⟨.openEnd, p.first, position - p.taken, p.taken⟩
  | b :: rest =>
    match pending with
    | none =>
      match Pending.start b with
      | none => .error ⟨.badStart, b, position, 1⟩
      | some (.inl c) => (decodeFrom (position + 1) none rest).map (c :: ·)
      | some (.inr p) => decodeFrom (position + 1) (some p) rest
    | some p =>
      if p.low ≤ b.toNat && b.toNat ≤ p.high then
        let value := p.value * 64 + (b.toNat - 0x80)
        if p.owed == 1 then (decodeFrom (position + 1) none rest).map (Char.ofNat value :: ·)
        else
          decodeFrom (position + 1)
            (some { first := p.first, taken := p.taken + 1, owed := p.owed - 1, value }) rest
      else .error ⟨.badContinuation, p.first, position - p.taken, p.taken⟩

/-- The text of bytes. -/
def ofUtf8 (bytes : List UInt8) : Except Utf8Error Text := decodeFrom 0 none bytes

/-- The bytes of a text. -/
def toUtf8 (t : Text) : List UInt8 := t.flatMap String.utf8EncodeChar

end Deskhand.Text
