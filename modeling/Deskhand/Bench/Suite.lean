import Deskhand.Bench.Value
import Deskhand.Table

/-!
# Benchmarks

A benchmark is called with some parameters, or with none, and returns a result or fails.
-/

namespace Deskhand.Bench

/-- What kind of failure it was. -/
inductive FailureKind where
  | value
  | field
  | service
  | exit
  | alarm
  deriving DecidableEq

/-- The name of a kind of failure. -/
def FailureKind.name : FailureKind → Text
  | .value => "ValueError"
  | .field => "KeyError"
  | .service => "RuntimeError"
  | .exit => "SystemExit"
  | .alarm => "timeout"

/-- A failure. -/
structure Failure where
  kind : FailureKind
  text : Text
  deriving DecidableEq

/-- A failure in words. A field is shown as it would be written. -/
def Failure.message (f : Failure) : Text :=
  f.kind.name ++ ": ".toList ++ if f.kind = .field then Text.quoted f.text else f.text

/-- A failure in place of a name. -/
def Failure.tag (f : Failure) : Text := '<' :: f.kind.name ++ ['>']

/-- What a benchmark does. -/
inductive Behaviour where
  | returns (v : Value)
  /-- Returns the values in turn. -/
  | cycle (vs : List Value)
  /-- Returns a parameter, or a value in its place. -/
  | echo (name : Text) (otherwise : Value)
  | raises (f : Failure)

/-- A benchmark. -/
structure Benchmark where
  name : Text
  behaviour : Behaviour
  /-- The parameters it is measured with. -/
  params : List (Table Value) := []

namespace Benchmark

/-- Calls a benchmark that was called `count` times before. -/
def call (b : Benchmark) (count : Nat) (arguments : Table Value) : Except Failure Value :=
  match b.behaviour with
  | .returns v => .ok v
  | .cycle vs => .ok (vs.getD (count % vs.length) .none)
  | .echo name otherwise => .ok ((arguments.get? name).getD otherwise)
  | .raises f => .error f

/-- Whether something is a benchmark by its name. -/
def isNamed (b : Benchmark) : Bool := Text.startsWith b.name "bench_"

end Benchmark

/-- The benchmarks among definitions, in the order of their names. -/
def suite (definitions : List Benchmark) : List Benchmark :=
  (definitions.filter Benchmark.isNamed).mergeSort fun a b ↦ Text.notAfter a.name b.name

/-- The label of parameters. -/
def paramLabel (params : Table Value) : Text :=
  if params.isEmpty then "-"
  else Text.join "," (params.map fun (name, v) ↦ name ++ '=' :: v.display)

end Deskhand.Bench
