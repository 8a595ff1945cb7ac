import Deskhand.Text.Digit

/-!
# Normal form of scripts

Before a script is sent, each `DELAY` that is directly followed by a digit gets a blank, the names of
three applications lose their endings, and line feeds at the end are dropped.
-/

namespace Deskhand.Broker

/-- A blank in front of a digit. -/
def gap (t : Text) : Text := if (t.head?.map Text.isDecimal).getD false then [' '] else []

/-- Puts a blank between `DELAY` and a digit. -/
def spaceDelays : Text → Text
  | 'D' :: 'E' :: 'L' :: 'A' :: 'Y' :: rest => "DELAY".toList ++ gap rest ++ spaceDelays rest
  | c :: rest => c :: spaceDelays rest
  | [] => []

/-- Drops the endings of application names. -/
def dropEndings (t : Text) : Text :=
  let t := Text.replaceAll t "notepad.exe" "notepad"
  let t := Text.replaceAll t "cmd.exe" "cmd"
  Text.replaceAll t "chrome.exe" "chrome"

/-- The normal form of a script (`fix_ducky_script_format`). -/
def normalise (script : Text) : Text := Text.trimEnd (· == '\n') (dropEndings (spaceDelays script))

end Deskhand.Broker
