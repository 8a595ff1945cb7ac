import Deskhand.Bench.Path
import Deskhand.Number.Fixed
import Deskhand.Table

/-!
# Profiles

How the time of a run spreads over files, and which part of it the measured code takes.
-/

namespace Deskhand.Bench

/-- The time of a run, in all and file by file. -/
structure Profile where
  total : Binary64 := .zero false
  rows : List (Text × Binary64) := []

namespace Profile

/-- The file that holds the benchmarks. -/
def benchFile : Text := "/repo/microbench.py"

/-- Directories whose files are not counted as measured code. -/
def isForeign (part : Text) : Bool :=
  ["site-packages".toList, "vendor".toList, "build".toList].contains part
    || Text.endsWith part ".egg-info"

/-- Whether a file is one of the measured code. -/
def isOwn (file : Text) : Bool :=
  match Path.inHome? file with
  | none => false
  | some parts =>
    file != benchFile && !parts.any isForeign
      && !Text.startsWith (parts.getLastD []) "_pti_"

/-- Whether a file stands for compiled code. -/
def isCompiled (file : Text) : Bool :=
  file.head? == some '~' || Text.endsWith file ".so" || Text.endsWith file ".pyd"

/-- The name under which a file that is not of the measured code is listed. -/
def label (file : Text) : Text :=
  if file == benchFile then "<run() body>"
  else if file == "~".toList then "builtins"
  else
    let name := Path.baseName file
    if Text.endsWith name ".py" then name.take (name.length - 3) else name

/-- The time of the files for which a test holds. -/
def timeOf (p : Profile) (test : Text → Bool) : Binary64 :=
  (p.rows.filter fun r ↦ test r.1).foldl (fun t r ↦ t.add r.2) (.zero false)

/-- A part of the whole time, times a factor, rounded; zero if there was no time. -/
def share (p : Profile) (factor : Int) (places : Nat) (part : Binary64) : Binary64 :=
  if p.total.isZero then .zero false
  else (((Binary64.ofInt factor).mul part).div p.total).roundTo places

/-- The time of the measured code. -/
def ownTime (p : Profile) : Binary64 := p.timeOf isOwn

/-- The time of compiled code that is not of the measured code. -/
def compiledTime (p : Profile) : Binary64 := p.timeOf fun f ↦ isCompiled f && !isOwn f

/-- The times of the other files by their labels. -/
def otherTimes (p : Profile) : Table Binary64 :=
  (p.rows.filter fun r ↦ !isOwn r.1).foldl
    (fun t r ↦ t.put (label r.1) (((t.get? (label r.1)).getD (.zero false)).add r.2)) []

/-- Whether one entry comes before another: more time first, then the later name. -/
def comesFirst (a b : Binary64 × Text) : Bool :=
  match a.1.order? b.1 with
  | some .gt => true
  | some .lt => false
  | _ => Text.notAfter b.2 a.2

/-- The two labels with most time, in percent. -/
def hottest (p : Profile) : List (Binary64 × Text) :=
  if p.total.isZero then []
  else ((p.otherTimes.map fun (l, t) ↦ (p.share 100 1 t, l)).mergeSort comesFirst).take 2

end Profile

/-- The next profile to be taken, and those after it. The last one repeats. -/
def nextProfile : List Profile → Profile × List Profile
  | [] => ({}, [])
  | [p] => (p, [p])
  | p :: rest => (p, rest)

end Deskhand.Bench
