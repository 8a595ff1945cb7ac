import Deskhand.Bench.Child
import Deskhand.Json.Writer
import Deskhand.Number.Fixed

/-!
# The history of rounds

Each round adds a line to a checkpoint. The lines tell how many rounds there were, when the last one
was, and whether the number of benchmarks below the target still falls.
-/

namespace Deskhand.Bench.History

/-- The lines of the rounds so far. -/
def rounds (checkpoint : Text) : List Text := fullLines checkpoint

/-- The number of benchmarks below the target in a line, if it has one. -/
def below? : Json → Option Int
  | v => match v.field? "n_below_repo_time" with
    | some (.int n) => some n
    | some (.bool b) => some (if b then 1 else 0)
    | _ => none

/-- The numbers of benchmarks below the target in the rounds so far. -/
def belows (checkpoint : Text) : List Int :=
  (rounds checkpoint).filterMap fun l ↦ (Json.read l).toOption.bind below?

/-- The time since the last round. There is none if the last line is no object. -/
def sinceLast? (checkpoint : Text) (clock : Binary64) : Option Binary64 :=
  match (rounds checkpoint).getLast? with
  | none => some (.zero false)
  | some line =>
    match Json.read line with
    | .ok (.object fields) =>
      match Table.get? fields "ts" with
      | none => some (.zero false)
      | some ts =>
        if !ts.truth then some (.zero false)
        else match ts.worth? with
          | some (.whole n) => some ((clock.sub (.ofInt n)).roundTo 2)
          | some (.binary x) => some ((clock.sub x).roundTo 2)
          | none => none
    | _ => none

/-- How many rounds came after the first one that reached the least number, and that number. -/
def sinceBest : List Int → Nat × Int
  | [] => (0, 0)
  | n :: rest =>
    let best := rest.foldl min n
    ((n :: rest).length - 1 - (n :: rest).findIdx (· == best), best)

/-- Why measuring can stop, if it can. -/
def stop? (before : List Int) (below : Int) : Option Text :=
  let text (why : Text) : Text :=
    "\n>>> STOP: repo_time converged (".toList ++ why
      ++ "). Finalize microbench.py now. <<<".toList
  if below == 0 then some (text "0 below")
  else
    let (since, best) := sinceBest (before ++ [below])
    if since ≥ 3 then
      some (text ("no improvement in ".toList ++ Text.ofNat since ++ " rounds; best ".toList
        ++ Text.ofInt best ++ " below".toList))
    else none

end Deskhand.Bench.History
