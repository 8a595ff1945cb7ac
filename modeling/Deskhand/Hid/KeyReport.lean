import Deskhand.Hid.Fault
import Deskhand.Number.Bits

/-!
# Key reports

What a keyboard tells its host: the set of modifier keys that are down, and up to six other keys in
the order in which they were pressed. The keys stand in six slots, a zero being an empty one.
-/

namespace Deskhand.Hid

/-- A key code. Codes from `0xE0` to `0xE7` are modifiers; a code that is no byte cannot be sent. -/
abbrev KeyCode := Int

/-- The code of the left control key, the first of the eight modifiers. -/
def KeyCode.firstModifier : KeyCode := 0xE0

/-- The place of a modifier among the eight, `none` for any other key. -/
def modifierIndex? (code : KeyCode) : Option Nat :=
  if 0xE0 ≤ code && code ≤ 0xE7 then some (code - 0xE0).toNat else none

/-- The bit a modifier sets, zero for any other key (`Keycode.modifier_bit`). -/
def modifierBit (code : KeyCode) : Nat :=
  match modifierIndex? code with
  | some i => Nat.pow 2 i
  | none => 0

/-- A key report. -/
structure KeyReport where
  modifiers : UInt8
  slots : List UInt8
  size_eq : slots.length = 6 := by decide

namespace KeyReport

instance : DecidableEq KeyReport := fun a b ↦
  decidable_of_iff (a.modifiers = b.modifiers ∧ a.slots = b.slots) <| by
    cases a; cases b; simp

/-- No key is down. -/
def empty : KeyReport where
  modifiers := 0
  slots := [0, 0, 0, 0, 0, 0]

instance : Inhabited KeyReport := ⟨empty⟩

/-- The eight bytes that are sent. -/
def bytes (r : KeyReport) : List UInt8 := r.modifiers :: 0 :: r.slots

/-- The keys that are down, modifiers aside. -/
def keys (r : KeyReport) : List UInt8 := r.slots.filter (· ≠ 0)

/-- The byte of a key code, if it is one. -/
def byte? (code : KeyCode) : Option UInt8 :=
  if 0 ≤ code && code < 256 then some code.toNat.toUInt8 else none

/-- The slots with a key put into the first empty one, or as they are if the key is among those
before it; `none` if all are taken by other keys. -/
def place? (key : UInt8) : List UInt8 → Option (List UInt8)
  | [] => none
  | s :: rest =>
    if s = 0 then some (key :: rest)
    else if s = key then some (s :: rest)
    else (place? key rest).map (s :: ·)

/-- The slots moved down by one, the first key being given up and the last one staying where it
was as well. -/
def shiftDown : List UInt8 → List UInt8
  | [] => []
  | s :: rest => rest ++ [rest.getLastD s]

/-- The slots after a key went up: the others move down, and the slots behind them are emptied. -/
def removeSlot (key : Option UInt8) (slots : List UInt8) : List UInt8 :=
  let used := slots.takeWhile (· ≠ 0)
  let kept := used.filter (some · ≠ key)
  kept ++ List.replicate (used.length - kept.length) 0 ++ slots.drop used.length

theorem length_place? {key : UInt8} {slots placed : List UInt8}
    (h : place? key slots = some placed) :
    placed.length = slots.length := by
  induction slots generalizing placed with
  | nil => simp [place?] at h
  | cons s rest ih =>
    simp only [place?] at h
    split at h
    · cases h; rfl
    · split at h
      · cases h; rfl
      · obtain ⟨r, hr, rfl⟩ := Option.map_eq_some_iff.1 h
        simp [ih hr]

theorem length_shiftDown (slots : List UInt8) : (shiftDown slots).length = slots.length := by
  cases slots <;> simp [shiftDown]

theorem length_removeSlot (key : Option UInt8) (slots : List UInt8) :
    (removeSlot key slots).length = slots.length := by
  have hk : ((slots.takeWhile (· ≠ 0)).filter (some · ≠ key)).length
      ≤ (slots.takeWhile (· ≠ 0)).length := List.length_filter_le ..
  have hu : (slots.takeWhile (· ≠ 0)).length ≤ slots.length :=
    (List.takeWhile_prefix _).length_le
  simp only [removeSlot, List.length_append, List.length_replicate, List.length_drop]
  omega

/-- Presses one key that is no modifier. With six other keys down, the first of them is given up. A
code that is no byte is refused when its slot is written, after the others moved. -/
def pressSlot (r : KeyReport) (code : KeyCode) : KeyReport × Option Fault :=
  match byte? code with
  | some key =>
    match h : place? key r.slots with
    | some placed => ({ r with slots := placed, size_eq := by rw [length_place? h, r.size_eq] }, none)
    | none =>
      ({ r with
          slots := r.slots.tail ++ [key]
          size_eq := by simp [r.size_eq] }, none)
  | none =>
    if r.slots.contains 0 then (r, some .keyNotByte)
    else
      ({ r with slots := shiftDown r.slots, size_eq := by rw [length_shiftDown, r.size_eq] },
        some .keyNotByte)

/-- Presses one key (`_add_keycode_to_report`). -/
def press (r : KeyReport) (code : KeyCode) : KeyReport × Option Fault :=
  match modifierIndex? code with
  | some i => ({ r with modifiers := r.modifiers ||| (Nat.pow 2 i).toUInt8 }, none)
  | none => r.pressSlot code

/-- Releases one key; one that is not down is left alone (`_remove_keycode_from_report`). -/
def release (r : KeyReport) (code : KeyCode) : KeyReport :=
  match modifierIndex? code with
  | some i => { r with modifiers := r.modifiers &&& ~~~ (Nat.pow 2 i).toUInt8 }
  | none =>
    { r with
      slots := removeSlot (byte? code) r.slots
      size_eq := by rw [length_removeSlot, r.size_eq] }

/-- Presses keys one after the other, stopping at the first that is refused. -/
def pressAll (r : KeyReport) : List KeyCode → KeyReport × Option Fault
  | [] => (r, none)
  | code :: rest =>
    match r.press code with
    | (r, none) => r.pressAll rest
    | (r, some fault) => (r, some fault)

/-- Releases keys one after the other. -/
def releaseAll (r : KeyReport) (codes : List KeyCode) : KeyReport := codes.foldl release r

/-- No key in front of an empty slot is missing, none is there twice, and no modifier takes a
slot. -/
structure WellFormed (r : KeyReport) : Prop where
  compact : ∃ n, r.slots = r.keys ++ List.replicate n 0
  distinct : r.keys.Nodup
  regular : ∀ k ∈ r.keys, k < 0xE0 ∨ 0xE7 < k

/-- With no key down a report is well formed. -/
theorem wellFormed_empty : WellFormed empty :=
  ⟨⟨6, by decide⟩, by decide, by simp [keys, empty]⟩

end KeyReport

end Deskhand.Hid
