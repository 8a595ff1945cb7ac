import Deskhand.Bench.Suite
import Deskhand.Json.Equal
import Deskhand.Number.Fixed

/-!
# Coverage runs

All benchmarks are run once while the executed lines are recorded. The report says how many lines
were covered; it is completed by the number of benchmarks and by those that failed.
-/

namespace Deskhand.Bench

/-- The number a value stands for. -/
def numberOf (v : Json) : Binary64 :=
  match v.worth? with
  | some (.whole n) => .ofInt n
  | some (.binary x) => x
  | none => .zero false

/-- The fields of an object in a field; none if there is no such object. -/
def fieldsAt (key : Text) (v : Json) : List (Text × Json) :=
  match v.field? key with
  | some (.object fields) => fields
  | _ => []

/-- What came of a coverage run. -/
structure CoverageRun where
  benches : Nat
  errors : Table Text

/-- Runs benchmarks. -/
def CoverageRun.ofSuite (benches : List Benchmark) : CoverageRun where
  benches := benches.length
  errors := benches.filterMap fun b ↦
    match b.call 0 [] with
    | .ok _ => none
    | .error f => some (b.name, f.message)

/-- The run when the benchmarks cannot be had. -/
def CoverageRun.unavailable (f : Failure) : CoverageRun where
  benches := 0
  errors := [("<import>", f.message)]

/-- What a coverage run prints. -/
def CoverageRun.summary (run : CoverageRun) (report : Json) : Text :=
  let totals : Json := .object (fieldsAt "totals" report)
  let field (key : Text) : Json := (totals.field? key).getD (.int 0)
  ["coverage: ".toList, (numberOf (field "percent_covered")).fixedText 1, "% (".toList,
    (field "covered_lines").display, "/".toList, (field "num_statements").display,
    " stmts, ".toList, Text.ofNat run.benches, " benches, ".toList,
    Text.ofNat run.errors.length, " errors)".toList].flatten

end Deskhand.Bench
