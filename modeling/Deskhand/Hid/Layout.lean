import Deskhand.Hid.Keyboard

/-!
# Keyboard layouts

A layout says which keys type a character. Characters up to the length of its table are found
there by their code; others in a list by code or by character. A number in either place is a key
code, with the bit `0x80` added if the shift key is needed. Some characters are typed as two: an
accent key that waits, and the letter it is put on.
-/

namespace Deskhand.Hid

/-- A keyboard layout (`KeyboardLayoutBase`). -/
structure Layout where
  /-- The key for each of the first codes, zero for none. -/
  table : List UInt8
  /-- Further characters by code; the last entry for a code counts. -/
  byCode : List (Int × Int) := []
  /-- Further characters by themselves; the last entry for a character counts. -/
  byChar : List (Char × Int) := []
  /-- Characters that need the right alt key. -/
  altGr : Text := []
  /-- Characters typed as two keys, by code: the first key in the upper byte, in the lower one the
  code of the second character, with `0x80` added if the first key needs right alt. -/
  combined : List (Int × Int) := []

/-- The shift key. -/
def shiftKey : KeyCode := 0xE1

/-- The right alt key. -/
def altGrKey : KeyCode := 0xE6

/-- The enter key. -/
def enterKey : KeyCode := 0x28

/-- Whether a layout number asks for the shift key. -/
def isShifted (number : Int) : Bool := Bits.and number 0x80 != 0

/-- The key code in a layout number. -/
def unshifted (number : Int) : KeyCode := Bits.and number (Bits.not 0x80)

/-- One key of a typed text: the layout number, and whether right alt is held. -/
structure Stroke where
  number : Int
  altGr : Bool
  deriving DecidableEq

/-- The keys pressed one after the other for a stroke, all released together at its end. -/
def Stroke.codes (s : Stroke) : List KeyCode :=
  (if s.altGr then [altGrKey] else [])
    ++ if isShifted s.number then [shiftKey, unshifted s.number] else [s.number]

namespace Layout

/-- The last value entered for a key. -/
def lastEntry {κ : Type} [BEq κ] (entries : List (κ × Int)) (key : κ) : Option Int :=
  entries.reverse.lookup key

/-- The layout number of a character, zero if it has none (`_char_to_keycode`). The code right behind
the table is refused. -/
def number (l : Layout) (c : Char) : Except Fault Int :=
  if l.table.length < c.toNat then
    match lastEntry l.byCode c.toNat with
    | some n => .ok n
    | none => .ok ((lastEntry l.byChar c).getD 0)
  else
    match l.table[c.toNat]? with
    | some key => .ok key.toNat
    | none => .error .behindTable

/-- Whether a character needs right alt. -/
def needsAltGr (l : Layout) (c : Char) : Bool := l.altGr.any (· == c)

/-- The strokes that type a character, and the fault that follows them if there is one. -/
def strokes (l : Layout) (c : Char) : List Stroke × Option Fault :=
  match l.number c with
  | .error fault => ([], some fault)
  | .ok n =>
    if 0 < n then ([⟨n, l.needsAltGr c⟩], none)
    else
      match lastEntry l.combined c.toNat with
      | none => ([], some (.noKey c))
      | some pair =>
        let first : Stroke := ⟨Bits.shiftRight pair 8, Bits.and pair 0x80 != 0⟩
        match l.number (Char.ofNat (Bits.and pair 0x7F).toNat) with
        | .error fault => ([first], some fault)
        | .ok n => ([first, ⟨n, false⟩], none)

/-- The key codes that type one character without waiting accents (`keycodes`). -/
def keyCodes (l : Layout) (t : Text) : Except Fault (List KeyCode) :=
  match t with
  | [c] =>
    match l.number c with
    | .error fault => .error fault
    | .ok n => if n == 0 then .error (.noKey c) else .ok (Stroke.codes ⟨n, l.needsAltGr c⟩)
  | t => .error (.notOneCharacter t.length)

/-- Types one stroke: right alt goes down first if it is held, then shift if the number asks for it,
then the key, and all go up together (`_write`). -/
def typeStroke (s : Stroke) : Act KeyReport Unit := do
  if s.altGr then Keyboard.press [altGrKey]
  if isShifted s.number then
    Keyboard.press [shiftKey]
    Keyboard.press [unshifted s.number]
  else Keyboard.press [s.number]
  Keyboard.releaseAll

/-- A stroke presses its keys one after the other. -/
theorem typeStroke_eq_forM (s : Stroke) :
    typeStroke s =
      s.codes.forM (fun code ↦ Keyboard.press [code]) >>= fun _ ↦ Keyboard.releaseAll := by
  obtain ⟨number, altGr⟩ := s
  unfold typeStroke Stroke.codes
  cases altGr <;> cases isShifted number <;> simp

/-- Types one character. -/
def typeChar (l : Layout) (c : Char) : Act KeyReport Unit := do
  let (strokes, fault) := l.strokes c
  strokes.forM typeStroke
  match fault with
  | some fault => Act.fail fault
  | none => pure ()

/-- Types a text, with a pause after each character if one is asked for (`write`). -/
def typeText (l : Layout) (delay : Option (Except Fault Int)) (t : Text) : Act KeyReport Unit :=
  t.forM fun c ↦ do
    l.typeChar c
    match delay with
    | some length => Act.pause length
    | none => pure ()

/-- The keys of a keyboard with 104 keys as used in the United States (`KeyboardLayoutUS`). -/
def us : Layout where
  table := [
    0x00, 0x00, 0x00, 0x00, 0x00, 0x00, 0x00, 0x00, 0x2a, 0x2b, 0x28, 0x00, 0x00, 0x00, 0x00, 0x00,
    0x00, 0x00, 0x00, 0x00, 0x00, 0x00, 0x00, 0x00, 0x00, 0x00, 0x00, 0x29, 0x00, 0x00, 0x00, 0x00,
    0x2c, 0x9e, 0xb4, 0xa0, 0xa1, 0xa2, 0xa4, 0x34, 0xa6, 0xa7, 0xa5, 0xae, 0x36, 0x2d, 0x37, 0x38,
    0x27, 0x1e, 0x1f, 0x20, 0x21, 0x22, 0x23, 0x24, 0x25, 0x26, 0xb3, 0x33, 0xb6, 0x2e, 0xb7, 0xb8,
    0x9f, 0x84, 0x85, 0x86, 0x87, 0x88, 0x89, 0x8a, 0x8b, 0x8c, 0x8d, 0x8e, 0x8f, 0x90, 0x91, 0x92,
    0x93, 0x94, 0x95, 0x96, 0x97, 0x98, 0x99, 0x9a, 0x9b, 0x9c, 0x9d, 0x2f, 0x31, 0x30, 0xa3, 0xad,
    0x35, 0x04, 0x05, 0x06, 0x07, 0x08, 0x09, 0x0a, 0x0b, 0x0c, 0x0d, 0x0e, 0x0f, 0x10, 0x11, 0x12,
    0x13, 0x14, 0x15, 0x16, 0x17, 0x18, 0x19, 0x1a, 0x1b, 0x1c, 0x1d, 0xaf, 0xb1, 0xb0, 0xb5, 0x4c]

end Layout

end Deskhand.Hid
