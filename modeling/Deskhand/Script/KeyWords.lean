import Deskhand.Hid.KeyNames

/-!
# Key words of macro scripts

The names a macro script may use for keys: its own short names first, then the media keys, then
every key the keyboard lists.
-/

namespace Deskhand.Script

/-- The script's own names of keys (`duckyKeys`). -/
def scriptKeys : List (String × Nat) := [
  ("WINDOWS", 0xe3), ("RWINDOWS", 0xe7), ("GUI", 0xe3), ("RGUI", 0xe7), ("COMMAND", 0xe3),
  ("RCOMMAND", 0xe7), ("APP", 0x65), ("MENU", 0x65), ("SHIFT", 0xe1), ("RSHIFT", 0xe5),
  ("ALT", 0xe2), ("RALT", 0xe6), ("OPTION", 0xe2), ("ROPTION", 0xe6), ("CONTROL", 0xe0),
  ("CTRL", 0xe0), ("RCTRL", 0xe4), ("DOWNARROW", 0x51), ("DOWN", 0x51), ("LEFTARROW", 0x50),
  ("LEFT", 0x50), ("RIGHTARROW", 0x4f), ("RIGHT", 0x4f), ("UPARROW", 0x52), ("UP", 0x52),
  ("BREAK", 0x48), ("PAUSE", 0x48), ("CAPSLOCK", 0x39), ("DELETE", 0x4c), ("END", 0x4d),
  ("ESC", 0x29), ("ESCAPE", 0x29), ("HOME", 0x4a), ("INSERT", 0x49), ("NUMLOCK", 0x53),
  ("PAGEUP", 0x4b), ("PAGEDOWN", 0x4e), ("PRINTSCREEN", 0x46), ("ENTER", 0x28),
  ("SCROLLLOCK", 0x47), ("SPACE", 0x2c), ("TAB", 0x2b), ("BACKSPACE", 0x2a), ("A", 0x04),
  ("B", 0x05), ("C", 0x06), ("D", 0x07), ("E", 0x08), ("F", 0x09), ("G", 0x0a), ("H", 0x0b),
  ("I", 0x0c), ("J", 0x0d), ("K", 0x0e), ("L", 0x0f), ("M", 0x10), ("N", 0x11), ("O", 0x12),
  ("P", 0x13), ("Q", 0x14), ("R", 0x15), ("S", 0x16), ("T", 0x17), ("U", 0x18), ("V", 0x19),
  ("W", 0x1a), ("X", 0x1b), ("Y", 0x1c), ("Z", 0x1d), ("F1", 0x3a), ("F2", 0x3b), ("F3", 0x3c),
  ("F4", 0x3d), ("F5", 0x3e), ("F6", 0x3f), ("F7", 0x40), ("F8", 0x41), ("F9", 0x42),
  ("F10", 0x43), ("F11", 0x44), ("F12", 0x45), ("F13", 0x68), ("F14", 0x69), ("F15", 0x6a),
  ("F16", 0x6b), ("F17", 0x6c), ("F18", 0x6d), ("F19", 0x6e), ("F20", 0x6f), ("F21", 0x70),
  ("F22", 0x71), ("F23", 0x72), ("F24", 0x73)]

/-- The script's names of media keys (`duckyConsumerKeys`). -/
def scriptMediaKeys : List (String × Nat) := [
  ("MK_VOLUP", 0xe9), ("MK_VOLDOWN", 0xea), ("MK_MUTE", 0xe2), ("MK_NEXT", 0xb5),
  ("MK_PREV", 0xb6), ("MK_PP", 0xcd), ("MK_STOP", 0xb7)]

/-- A key a script line names. -/
inductive Key where
  | key (code : Nat)
  | media (code : Nat)
  deriving DecidableEq

/-- The key of a name among the script's own. -/
def scriptKey? (name : Text) : Option Nat := Hid.lookupName scriptKeys name

/-- The key of a name. -/
def Key.ofName? (name : Text) : Option Key :=
  match scriptKey? name with
  | some code => some (.key code)
  | none =>
    match Hid.lookupName scriptMediaKeys name with
    | some code => some (.media code)
    | none => (Hid.keyCode? name).map .key

/-- One number for a key: its code, raised by one thousand for a media key. -/
def Key.number : Key → Nat
  | .key code => code
  | .media code => 1000 + code

end Deskhand.Script
