import Deskhand.Hid.Fault

/-!
# Names of keys

The usage codes of keyboard keys and of media keys, by the names under which they are listed.
-/

namespace Deskhand.Hid

/-- The named keys and their codes (`Keycode`). -/
def keyNames : List (String × Nat) := [
  ("A", 0x04), ("B", 0x05), ("C", 0x06), ("D", 0x07), ("E", 0x08), ("F", 0x09), ("G", 0x0a),
  ("H", 0x0b), ("I", 0x0c), ("J", 0x0d), ("K", 0x0e), ("L", 0x0f), ("M", 0x10), ("N", 0x11),
  ("O", 0x12), ("P", 0x13), ("Q", 0x14), ("R", 0x15), ("S", 0x16), ("T", 0x17), ("U", 0x18),
  ("V", 0x19), ("W", 0x1a), ("X", 0x1b), ("Y", 0x1c), ("Z", 0x1d), ("ONE", 0x1e), ("TWO", 0x1f),
  ("THREE", 0x20), ("FOUR", 0x21), ("FIVE", 0x22), ("SIX", 0x23), ("SEVEN", 0x24),
  ("EIGHT", 0x25), ("NINE", 0x26), ("ZERO", 0x27), ("ENTER", 0x28), ("RETURN", 0x28),
  ("ESCAPE", 0x29), ("BACKSPACE", 0x2a), ("TAB", 0x2b), ("SPACEBAR", 0x2c), ("SPACE", 0x2c),
  ("MINUS", 0x2d), ("EQUALS", 0x2e), ("LEFT_BRACKET", 0x2f), ("RIGHT_BRACKET", 0x30),
  ("BACKSLASH", 0x31), ("POUND", 0x32), ("SEMICOLON", 0x33), ("QUOTE", 0x34),
  ("GRAVE_ACCENT", 0x35), ("COMMA", 0x36), ("PERIOD", 0x37), ("FORWARD_SLASH", 0x38),
  ("CAPS_LOCK", 0x39), ("F1", 0x3a), ("F2", 0x3b), ("F3", 0x3c), ("F4", 0x3d), ("F5", 0x3e),
  ("F6", 0x3f), ("F7", 0x40), ("F8", 0x41), ("F9", 0x42), ("F10", 0x43), ("F11", 0x44),
  ("F12", 0x45), ("PRINT_SCREEN", 0x46), ("SCROLL_LOCK", 0x47), ("PAUSE", 0x48),
  ("INSERT", 0x49), ("HOME", 0x4a), ("PAGE_UP", 0x4b), ("DELETE", 0x4c), ("END", 0x4d),
  ("PAGE_DOWN", 0x4e), ("RIGHT_ARROW", 0x4f), ("LEFT_ARROW", 0x50), ("DOWN_ARROW", 0x51),
  ("UP_ARROW", 0x52), ("KEYPAD_NUMLOCK", 0x53), ("KEYPAD_FORWARD_SLASH", 0x54),
  ("KEYPAD_ASTERISK", 0x55), ("KEYPAD_MINUS", 0x56), ("KEYPAD_PLUS", 0x57),
  ("KEYPAD_ENTER", 0x58), ("KEYPAD_ONE", 0x59), ("KEYPAD_TWO", 0x5a), ("KEYPAD_THREE", 0x5b),
  ("KEYPAD_FOUR", 0x5c), ("KEYPAD_FIVE", 0x5d), ("KEYPAD_SIX", 0x5e), ("KEYPAD_SEVEN", 0x5f),
  ("KEYPAD_EIGHT", 0x60), ("KEYPAD_NINE", 0x61), ("KEYPAD_ZERO", 0x62), ("KEYPAD_PERIOD", 0x63),
  ("KEYPAD_BACKSLASH", 0x64), ("APPLICATION", 0x65), ("POWER", 0x66), ("KEYPAD_EQUALS", 0x67),
  ("F13", 0x68), ("F14", 0x69), ("F15", 0x6a), ("F16", 0x6b), ("F17", 0x6c), ("F18", 0x6d),
  ("F19", 0x6e), ("F20", 0x6f), ("F21", 0x70), ("F22", 0x71), ("F23", 0x72), ("F24", 0x73),
  ("LEFT_CONTROL", 0xe0), ("CONTROL", 0xe0), ("LEFT_SHIFT", 0xe1), ("SHIFT", 0xe1),
  ("LEFT_ALT", 0xe2), ("ALT", 0xe2), ("OPTION", 0xe2), ("LEFT_GUI", 0xe3), ("GUI", 0xe3),
  ("WINDOWS", 0xe3), ("COMMAND", 0xe3), ("RIGHT_CONTROL", 0xe4), ("RIGHT_SHIFT", 0xe5),
  ("RIGHT_ALT", 0xe6), ("RIGHT_GUI", 0xe7)]

/-- The named media codes (`ConsumerControlCode`). -/
def mediaNames : List (String × Nat) := [
  ("RECORD", 0xb2), ("FAST_FORWARD", 0xb3), ("REWIND", 0xb4), ("SCAN_NEXT_TRACK", 0xb5),
  ("SCAN_PREVIOUS_TRACK", 0xb6), ("STOP", 0xb7), ("EJECT", 0xb8), ("PLAY_PAUSE", 0xcd),
  ("MUTE", 0xe2), ("VOLUME_DECREMENT", 0xea), ("VOLUME_INCREMENT", 0xe9),
  ("BRIGHTNESS_DECREMENT", 0x70), ("BRIGHTNESS_INCREMENT", 0x6f)]

/-- The entry of a name in a list of names. -/
def lookupName (names : List (String × Nat)) (name : Text) : Option Nat :=
  (names.find? fun entry ↦ entry.1.toList == name).map Prod.snd

/-- The code of a named key. -/
def keyCode? (name : Text) : Option Nat := lookupName keyNames name

/-- The code of a named media key. -/
def mediaCode? (name : Text) : Option Nat := lookupName mediaNames name

/-- The code of a named key, or why there is none. -/
def namedKey (name : Text) : Except Fault Nat :=
  match keyCode? name with
  | some code => .ok code
  | none => .error (.noSuchKey name)

/-- The code of a named media key, or why there is none. -/
def namedMediaKey (name : Text) : Except Fault Nat :=
  match mediaCode? name with
  | some code => .ok code
  | none => .error (.noSuchMediaKey name)

end Deskhand.Hid
