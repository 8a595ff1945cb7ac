import Deskhand.Bench.CoverageTable
import Deskhand.Bench.History
import Deskhand.Bench.Verdict
import Deskhand.Text.Word

/-!
# Rounds of measurement

A round runs all benchmarks under coverage, then has their shares of time measured and the
benchmarks checked, reports on all of it, and adds a line to the checkpoint.
-/

namespace Deskhand.Bench

/-- What a round starts from. -/
structure Round where
  /-- The report of the coverage run, if it was written. -/
  coverage : Option Json := none
  /-- The text with the benchmarks. -/
  source : Text := []
  checkpoint : Text := []
  runner : Child := .finished 0 [] []
  timeShare : Option Child := none
  selfCheck : Option Child := none
  changes : Child := .finished 0 [] []
  seconds : Binary64 := .ofRatio false 3 2
  clock : Binary64 := .ofInt 1000

/-- What came of a round. -/
structure RoundResult where
  exit : Option Int := none
  out : List Text := []
  err : Text := []
  /-- What is added to the checkpoint. -/
  added : Text := []

/-- The number of benchmarks a text defines. -/
def countDefinitions (source : Text) : Nat :=
  ((Text.splitOn source "\n").filter fun l ↦
    match Text.after? "def bench_" l with
    | some (c :: _) => Text.isWord c
    | _ => false).length

/-- The answer of a helper program, with what it wrote beside it and the report on any trouble. -/
def consult {α : Type} (helper : Text) (read : Json → Except Trouble α) (otherwise : α) :
    Option Child → α × Text
  | none => (otherwise, [])
  | some (.failed cause) => (otherwise, (Trouble.notStarted cause).report helper)
  | some (.finished _ out err) =>
    let answer : Except Trouble α := do
      match ← lastAnswer out with
      | none => .ok otherwise
      | some v => read v
    match answer with
    | .ok a => (a, err)
    | .error t => (otherwise, err ++ t.report helper)

/-- The shares of time in an answer, with the labels that take most of the rest. -/
def sharesIn (answer : Json) : Except Trouble (Table Binary64 × List (Text × Json)) := do
  let shares ← (← objectAt "repo_time_pct" answer).mapM fun (name, v) ↦ do
    return (name, ← toNumber v)
  return (shares, ← objectAt "hot_ext" answer)

/-- The share below which a benchmark is marked. -/
def shareLimit : Binary64 := .ofInt 45

/-- Whether a share was measured. -/
def isMeasured (x : Binary64) : Bool := !isBelow x (.zero false)

/-- The labels that take most of the rest, in words. -/
def hotText : Option Json → Text
  | some (.list items) =>
    let parts := items.filterMap fun v ↦
      match v with
      | .list [x, .text label] => some (label ++ ' ' :: (numberOf x).fixedText 0 ++ ['%'])
      | _ => none
    if parts.isEmpty then [] else " (hot: ".toList ++ Text.join " " parts ++ [')']
  | _ => []

/-- The part of the report with the shares of time, the smallest first. -/
def shareLines (shares : Table Binary64) (hot : List (Text × Json)) : List Text :=
  let sorted := shares.mergeSort fun a b ↦ !isBelow b.2 a.2
  let row (name : Text) (x : Binary64) : Text :=
    let marked := isMeasured x && isBelow x shareLimit
    let value := if isMeasured x then x else .zero false
    [(if marked then "  * " else "    " : String).toList, Text.padEnd 32 name, [' '],
      Text.padStart 5 (value.fixedText 1), ['%'],
      if !isMeasured x then "  <error>"
      else if marked then hotText (Table.get? hot name) else []].flatten
  if shares.isEmpty then []
  else "\nrepo_time (target 50%; * = below 45%):".toList :: sorted.map fun (name, x) ↦ row name x

/-- The lines that list changed files. -/
def Child.listed : Child → List Text
  | .finished _ out _ => fullLines out
  | .failed _ => []

/-- The report of a round whose coverage run failed. -/
def failedRound (code : Int) (out err : Text) : RoundResult :=
  { exit := some code
    out := ["coverage measurement failed (exit ".toList ++ Text.ofInt code ++ ")\n".toList ++ out]
    err := err }

/-- The last line of a report. -/
def closingLine (number benches : Nat) (percent : Binary64) (shares : Table Binary64)
    (below : Nat) (verdicts objections : Nat) (seconds : Binary64) : Text :=
  let measured := (shares.filter fun s ↦ isMeasured s.2).length
  ["\n[round ".toList, Text.ofNat number, ": ".toList, Text.ofNat benches, " benches, ".toList,
    percent.fixedText 1, "% covered".toList,
    if shares.isEmpty then []
    else ", ".toList ++ Text.ofNat below ++ '/' :: Text.ofNat measured
      ++ " below repo_time 45%".toList,
    if verdicts == 0 then []
    else ", ".toList ++ Text.ofNat objections ++ '/' :: Text.ofNat verdicts
      ++ " not self-checking".toList,
    ", measured in ".toList, seconds.fixedText 1, "s]".toList].flatten

/-- A round whose coverage run wrote a report. -/
def Round.report (r : Round) (coverage : Json) (runnerErr : Text) : RoundResult :=
  let totals : Json := .object (fieldsAt "totals" coverage)
  let percent := percentAt "percent_covered" totals
  let errors := fieldsAt "_pti_bench_errors" (.object (fieldsAt "meta" coverage))
  let ((shares, hot), shareErr) := consult "repotime" sharesIn ([], []) r.timeShare
  let (evidence, checkErr) := consult "semcheck" evidenceOf [] r.selfCheck
  let changes := if evidence.isEmpty then [] else r.changes.listed
  let verdicts := evidence.map fun (name, e) ↦ (name, e.verdict (!changes.isEmpty), e)
  let objections := (verdicts.filter fun entry ↦ !entry.2.1.isSound).length
  let measured := shares.filter fun s ↦ isMeasured s.2
  let below := (measured.filter fun s ↦ isBelow s.2 shareLimit).length
  let number := (History.rounds r.checkpoint).length + 1
  let benches := countDefinitions r.source
  let stop :=
    if measured.isEmpty || isBelow percent (.ofInt 60) then []
    else (History.stop? (History.belows r.checkpoint) below).toList
  let line (wall : Binary64) : Json := .object [("round", .int number), ("ts", .float r.clock),
    ("wall_since_prev_s", .float wall), ("coverage_pct", .float percent),
    ("covered_lines", .int (countAt "covered_lines" totals)),
    ("num_statements", .int (countAt "num_statements" totals)),
    ("n_bench_fns", .int benches), ("n_bench_errors", .int errors.length),
    ("cov_measure_s", .float (r.seconds.roundTo 3)),
    ("repo_time_pct", .object (shares.map fun (name, x) ↦ (name, .float x))),
    ("n_below_repo_time", if measured.isEmpty then .null else .int below),
    ("semcheck", .object (verdicts.map fun entry ↦ (entry.1, .text entry.2.1.name))),
    ("n_not_self_checking", .int objections)]
  { out := coverageTable coverage ++ errorLines errors ++ shareLines shares hot
      ++ modifiedLines changes ++ verdictLines verdicts
      ++ closingLine number benches percent shares below verdicts.length objections r.seconds
      :: stop
    err := runnerErr ++ shareErr ++ checkErr
    added := match History.sinceLast? r.checkpoint r.clock with
      | some wall => Json.write (line wall) ++ ['\n']
      | none => [] }

/-- Runs a round; the cause is given if the coverage run could not be started. -/
def Round.run (r : Round) : Except Text RoundResult :=
  match r.runner with
  | .failed cause => .error cause
  | .finished code out err =>
    match code, r.coverage with
    | 0, some coverage => .ok (r.report coverage err)
    | 0, none => .ok (failedRound 1 out err)
    | code, _ => .ok (failedRound code out err)

end Deskhand.Bench
