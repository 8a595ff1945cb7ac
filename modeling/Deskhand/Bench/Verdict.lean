import Deskhand.Bench.Child
import Deskhand.Number.Fixed
import Deskhand.Text.Pad
import Deskhand.Table

/-!
# Verdicts on benchmarks

What the findings about a benchmark say of it. The first objection that applies is the verdict.
-/

namespace Deskhand.Bench

/-- A verdict on a benchmark. -/
inductive Verdict where
  /-- Files of the measured code were changed. -/
  | modified
  /-- It failed. -/
  | error
  /-- It returns nothing. -/
  | returnsNone
  /-- Two runs return different results. -/
  | unstable
  /-- It returns a parameter. -/
  | returnsInput
  /-- Less than half of its time is spent in the measured code. -/
  | lowShare
  /-- It takes less than a millisecond. -/
  | tooFast
  /-- All parameters give one result. -/
  | invariant
  /-- It is sound, but has fewer than two sets of parameters. -/
  | soundAlone
  | sound
  deriving DecidableEq

namespace Verdict

/-- The name of a verdict. -/
def name : Verdict → Text
  | .modified => "repo-modified"
  | .error => "error"
  | .returnsNone => "returns-none"
  | .unstable => "unstable"
  | .returnsInput => "returns-input"
  | .lowShare => "low-repo-time"
  | .tooFast => "too-fast"
  | .invariant => "param-invariant"
  | .soundAlone => "ok-unparam"
  | .sound => "ok"

/-- Whether there is no objection. -/
def isSound : Verdict → Bool
  | .soundAlone => true
  | .sound => true
  | _ => false

end Verdict

/-- Whether one number is below another. -/
def isBelow (x y : Binary64) : Bool := x.order? y == some .lt

/-- The smaller of two numbers. -/
def smaller (x y : Binary64) : Binary64 := if isBelow y x then y else x

/-- The least of some numbers; zero if there are none. -/
def least : List Binary64 → Binary64
  | [] => .zero false
  | x :: rest => rest.foldl smaller x

/-- One half. -/
def half : Binary64 := .ofRatio false 1 2

/-- The middle of some numbers, or the mean of the two in the middle; zero if there are none. -/
def median (xs : List Binary64) : Binary64 :=
  let sorted := xs.mergeSort fun x y ↦ !isBelow y x
  let n := sorted.length
  let nth (i : Nat) : Binary64 := sorted.getD i (.zero false)
  if n % 2 == 1 then nth (n / 2)
  else if n == 0 then .zero false
  else ((nth (n / 2 - 1)).add (nth (n / 2))).div (.ofInt 2)

/-- The findings about a benchmark as a helper program reports them. -/
structure Evidence where
  kind : Option Text
  stable : List Json
  byParam : List Json
  params : List Json
  ownShares : List Binary64
  ownMillis : List Binary64

namespace Evidence

/-- The items of a list that a field holds. -/
def itemsAt (key : Text) (v : Json) : List Json :=
  match v.field? key with
  | some (.list items) => items
  | _ => []

/-- The findings in an object. -/
def ofJson (v : Json) : Except Trouble Evidence := do
  let values (key : Text) : Except Trouble (List Json) := (·.map Prod.snd) <$> objectAt key v
  return {
    kind := (v.field? "ret_type").bind Json.text?
    stable := itemsAt "fp_stable" v
    byParam := ← values "fp_by_param"
    params := itemsAt "param_fps" v
    ownShares := ← (← values "repo_frac").mapM toNumber
    ownMillis := ← (← values "repo_tt_ms").mapM toNumber }

/-- Whether the benchmark failed. -/
def isFailure (e : Evidence) : Bool :=
  match e.kind with
  | none => true
  | some kind => kind.head? == some '<'

/-- Whether not all of some values are equal. -/
def differ : List Json → Bool
  | [] => false
  | v :: rest => rest.any fun w ↦ !v.equals w

/-- The verdict on a benchmark, given whether files of the measured code were changed. -/
def verdict (modified : Bool) (e : Evidence) : Verdict :=
  if modified then .modified
  else if e.isFailure then .error
  else if e.kind == some "NoneType".toList then .returnsNone
  else if differ e.stable then .unstable
  else if e.stable.head?.any fun v ↦ e.params.any v.equals then .returnsInput
  else if !e.ownShares.isEmpty && isBelow (least e.ownShares) half then .lowShare
  else if !e.ownMillis.isEmpty && isBelow (median e.ownMillis) (.ofInt 1) then .tooFast
  else if e.byParam.length ≥ 2 && !differ e.byParam then .invariant
  else if e.byParam.length < 2 then .soundAlone
  else .sound

/-- The line of a benchmark in the report. -/
def row (name : Text) (v : Verdict) (e : Evidence) : Text :=
  [(if v.isSound then "    " else "  * " : String).toList, Text.padEnd 32 name, [' '],
    Text.padEnd 16 v.name, " (".toList, e.kind.getD "?", ", repo ".toList,
    ((Binary64.ofInt 100).mul (least e.ownShares)).fixedText 0, "%) ".toList,
    (median e.ownMillis).fixedText 1, "ms".toList].flatten

end Evidence

/-- The findings about benchmarks in an answer. Whatever is no object is passed over. -/
def evidenceOf (answer : Json) : Except Trouble (Table Evidence) := do
  (← objectAt "semcheck" answer).filterMapM fun (name, v) ↦
    match v with
    | .object _ => do return some (name, ← Evidence.ofJson v)
    | _ => .ok none

/-- What the report says of the objections. -/
def legend : List Text := [
  "\nself-check (* = fix needed):",
  "  returns-none: run() has no return — collect and return the call results",
  "  unstable: seed RNG in setup; avoid time/uuid/id in the return",
  "  returns-input: return repo output, not the parameter value",
  "  low-repo-time: <50% of run() time is in repo code — move glue to setup",
  "  param-invariant: return something derived from run()'s work, not setup",
  "  repo-modified: revert edits to repo files (git checkout -- <path>)"]

/-- The part of the report with the verdicts: objections first, each half by name. -/
def verdictLines (entries : List (Text × Verdict × Evidence)) : List Text :=
  let sorted := entries.mergeSort fun a b ↦ Text.notAfter a.1 b.1
  let (sound, unsound) := sorted.partition fun entry ↦ entry.2.1.isSound
  if entries.isEmpty then []
  else legend ++ (unsound ++ sound).map fun (name, v, e) ↦ e.row name v

/-- The part of the report with the files that were changed, from the lines that list them. -/
def modifiedLines (changes : List Text) : List Text :=
  if changes.isEmpty then []
  else
    ("\n** repo modified (".toList ++ Text.ofNat changes.length
        ++ " file(s)) — revert these; only microbench.py is yours to edit:".toList)
      :: (changes.take 10).map fun l ↦ "   ".toList ++ l.drop 3

end Deskhand.Bench
