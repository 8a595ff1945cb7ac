import Deskhand.Failure
import Deskhand.Text.Quoted

/-!
# Faults of the input devices

Why a key, button or media code cannot be sent, or a character not be typed.
-/

namespace Deskhand.Hid

/-- Why an input device refuses an operation. -/
inductive Fault where
  /-- The layout has no key for the character. -/
  | noKey (c : Char)
  /-- The character's code is the first one behind the layout's table. -/
  | behindTable
  /-- A key code does not fit a slot of the key report. -/
  | keyNotByte
  /-- A set of buttons does not fit the pointer report. -/
  | buttonsNotByte
  /-- A media code has more than sixteen bits. -/
  | codeNotWord
  /-- A media code is too large even to be looked at. -/
  | codeTooLarge
  /-- Key codes were asked for a text that is not one character. -/
  | notOneCharacter (length : Nat)
  /-- No device of this usage can send reports. -/
  | noDevice
  /-- The device's connection did not come up in time. -/
  | notConnected
  /-- A pause of negative length. -/
  | negativePause
  /-- A pause too long to be measured. -/
  | pauseTooLong (integer : Bool)
  /-- No key has this name. -/
  | noSuchKey (name : Text)
  /-- No media key has this name. -/
  | noSuchMediaKey (name : Text)
  deriving DecidableEq

namespace Fault

/-- The family of a fault. -/
def family : Fault → Family
  | .behindTable => .index
  | .codeNotWord | .codeTooLarge => .packing
  | .notOneCharacter _ => .type
  | .notConnected => .system
  | .pauseTooLong _ => .overflow
  | .noSuchKey _ | .noSuchMediaKey _ => .member
  | _ => .value

/-- The message for a fault. -/
def message : Fault → Text
  | .noKey c =>
    "No keycode available for character ".toList ++ Text.quoted [c] ++ " (".toList
      ++ Text.ofNat c.toNat ++ "/0x".toList ++ Text.ofHex 2 c.toNat ++ ").".toList
  | .behindTable => "index out of range"
  | .keyNotByte => "memoryview: invalid value for format 'B'"
  | .buttonsNotByte => "byte must be in range(0, 256)"
  | .codeNotWord => "ushort format requires 0 <= number <= 65535"
  | .codeTooLarge => "argument out of range"
  | .notOneCharacter n =>
    "ord() expected a character, but string of length ".toList ++ Text.ofNat n ++ " found".toList
  | .noDevice => "Could not find matching HID device."
  | .notConnected => "Failed to initialize HID device. Is USB connected?"
  | .negativePause => "sleep length must be non-negative"
  | .pauseTooLong true => "integer division result too large for a float"
  | .pauseTooLong false => "int too large to convert to float"
  | .noSuchKey name =>
    "type object 'Keycode' has no attribute ".toList ++ Text.between "'" name
  | .noSuchMediaKey name =>
    "type object 'ConsumerControlCode' has no attribute ".toList ++ Text.between "'" name

end Fault

end Deskhand.Hid
