import Deskhand.Bench.Fingerprint
import Deskhand.Bench.Profile
import Deskhand.Bench.Suite
import Deskhand.Json.Basic

/-!
# Checks of benchmarks by themselves

Each benchmark is run twice without parameters and once with each of its parameters. Its results are
kept as fingerprints, and its profiles as the shares that the measured code and compiled code take.
-/

namespace Deskhand.Bench

/-- What was found about a benchmark. -/
structure Finding where
  kind : Text
  stable : List Text := []
  byParam : Table Text := []
  params : List Text := []
  ownShare : Table Binary64 := []
  compiledShare : Table Binary64 := []
  ownMillis : Table Binary64 := []

namespace Finding

/-- A finding with one more profile under a label. -/
def withProfile (f : Finding) (label : Text) (p : Profile) : Finding :=
  { f with
    ownShare := f.ownShare.put label (p.share 1 3 p.ownTime)
    compiledShare := f.compiledShare.put label (p.share 1 3 p.compiledTime)
    ownMillis := f.ownMillis.put label (((Binary64.ofInt 1000).mul p.ownTime).roundTo 3) }

/-- A finding as an object. -/
def toJson (f : Finding) : Json :=
  let texts (ts : List Text) : Json := .list (ts.map .text)
  let numbers (t : Table Binary64) : Json := .object (t.map fun (k, x) ↦ (k, .float x))
  .object [("ret_type", .text f.kind), ("fp_stable", texts f.stable),
    ("fp_by_param", .object (f.byParam.map fun (k, t) ↦ (k, .text t))),
    ("param_fps", texts f.params), ("repo_frac", numbers f.ownShare),
    ("ext_frac", numbers f.compiledShare), ("repo_tt_ms", numbers f.ownMillis)]

end Finding

/-- A finding with the runs for parameters, of which `count` calls came before. -/
def checkParams (b : Benchmark) (count : Nat) (f : Finding) (profiles : List Profile) :
    List (Table Value) → Except Failure (Finding × List Profile)
  | [] => .ok (f, profiles)
  | params :: rest => do
    let v ← b.call count params
    let (p, profiles) := nextProfile profiles
    let label := paramLabel params
    let f := { f with
      byParam := f.byParam.put label v.fingerprint
      params := f.params ++ params.map (Value.fingerprint ∘ Prod.snd) }
    checkParams b (count + 1) (f.withProfile label p) profiles rest

/-- Checks a benchmark. -/
def checkBench (b : Benchmark) (profiles : List Profile) :
    Except Failure (Finding × List Profile) := do
  let first ← b.call 0 []
  let second ← b.call 1 []
  let (p, profiles) := nextProfile profiles
  let f : Finding := { kind := first.kindName, stable := [first.fingerprint, second.fingerprint] }
  checkParams b 2 (f.withProfile "<default>" p) profiles b.params

/-- Checks benchmarks one after the other. A failure takes no profile. -/
def checkAll (profiles : List Profile) : List Benchmark → Table Finding
  | [] => []
  | b :: rest =>
    match checkBench b profiles with
    | .ok (f, profiles) => (b.name, f) :: checkAll profiles rest
    | .error failure => (b.name, { kind := failure.tag }) :: checkAll profiles rest

/-- What a check of benchmarks prints. -/
def selfCheck (profiles : List Profile) (definitions : List Benchmark) : Json :=
  .object [("semcheck", .object
    ((checkAll profiles (suite definitions)).map fun (name, f) ↦ (name, f.toJson)))]

/-- What is printed when the benchmarks cannot be had. -/
def importFailure (f : Failure) : Json := .object [("_import_error", .text f.message)]

end Deskhand.Bench
