import Deskhand.Bench.Profile
import Deskhand.Bench.Suite
import Deskhand.Json.Basic

/-!
# Shares of time

The percentage of a benchmark's time that is spent in the measured code, and where the rest goes.
-/

namespace Deskhand.Bench

/-- The share of a benchmark in percent, and the labels that take most of the rest. -/
structure Share where
  percent : Binary64
  hottest : List (Binary64 × Text)

/-- The share in place of one that could not be found out. -/
def Share.failed (f : Failure) : Share := ⟨.ofInt (-1), [(.zero false, f.tag)]⟩

/-- The shares of benchmarks, one profile each. A failure takes no profile. -/
def sharesOf (profiles : List Profile) : List Benchmark → Table Share
  | [] => []
  | b :: rest =>
    match b.call 0 [] with
    | .ok _ =>
      let (p, profiles) := nextProfile profiles
      (b.name, ⟨p.share 100 1 p.ownTime, p.hottest⟩) :: sharesOf profiles rest
    | .error f => (b.name, .failed f) :: sharesOf profiles rest

/-- What a measurement of shares prints. -/
def timeShares (profiles : List Profile) (definitions : List Benchmark) : Json :=
  let shares := sharesOf profiles (suite definitions)
  let hot (s : Share) : Json := .list (s.hottest.map fun (x, l) ↦ .list [.float x, .text l])
  .object [("repo_time_pct", .object (shares.map fun (name, s) ↦ (name, .float s.percent))),
    ("hot_ext", .object (shares.map fun (name, s) ↦ (name, hot s)))]

end Deskhand.Bench
