import Deskhand.Text.Basic

/-!
# Names of files

Names of files as lists of parts, put in order and seen from a directory.
-/

namespace Deskhand.Bench.Path

/-- The directory of the code that is measured. -/
def home : Text := "/repo"

/-- The parts of a name with the steps up and the steps on the spot carried out, the last part
first. -/
def tidyParts (done : List Text) : List Text → List Text
  | [] => done
  | part :: rest =>
    if part.isEmpty || part == ".".toList then tidyParts done rest
    else if part == "..".toList then tidyParts done.tail rest
    else tidyParts (part :: done) rest

/-- The parts of a name that starts at the root, if it does. -/
def parts? : Text → Option (List Text)
  | '/' :: rest => some (tidyParts [] (Text.splitOn rest "/")).reverse
  | _ => none

/-- The parts of the home directory. -/
def homeParts : List Text := (parts? home).getD []

/-- The parts of a name below a directory, if it lies there. -/
def below? : List Text → List Text → Option (List Text)
  | [], rest => if rest.isEmpty then none else some rest
  | d :: dir, p :: rest => if d == p then below? dir rest else none
  | _ :: _, [] => none

/-- The parts of a file's name below the home directory, if it lies there. -/
def inHome? (file : Text) : Option (List Text) := (parts? file).bind (below? homeParts)

/-- The way from one directory to a name: as many steps up as needed, then down. -/
def way : List Text → List Text → List Text
  | [], target => target
  | d :: dir, p :: rest =>
    if d == p then way dir rest
    else (d :: dir).map (fun _ ↦ "..".toList) ++ p :: rest
  | dir, [] => dir.map fun _ ↦ "..".toList

/-- A name as seen from the home directory. -/
def fromHome (file : Text) : Text :=
  match parts? file with
  | none => file
  | some parts =>
    match way homeParts parts with
    | [] => "."
    | steps => Text.join "/" steps

/-- The last part of a name. -/
def baseName (file : Text) : Text := (Text.splitOn file "/").getLastD []

end Deskhand.Bench.Path
