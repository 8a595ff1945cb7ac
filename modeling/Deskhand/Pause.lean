import Deskhand.Hid.Fault
import Deskhand.Number.Binary64

/-!
# Pauses

A pause is asked for in seconds, a binary number, and told in whole milliseconds, rounded to the
nearest with a tie going to the even one.
-/

namespace Deskhand.Pause

open Hid (Fault)

/-- The milliseconds of a pause given in seconds. A negative pause is refused. -/
def ofSeconds (seconds : Binary64) : Except Fault Int :=
  if seconds.isNegative && !seconds.isZero then .error .negativePause
  else
    match seconds.mul (.ofInt 1000) with
    | .finite s m e => .ok (Binary64.roundInt s m e)
    | _ => .error (.pauseTooLong false)

/-- The milliseconds of a pause of `n` milliseconds, by way of seconds. -/
def ofMillis (n : Nat) : Except Fault Int :=
  match Binary64.ofRatio false n 1000 with
  | .infinite _ => .error (.pauseTooLong true)
  | seconds => ofSeconds seconds

/-- The milliseconds of a pause of whole seconds. -/
def ofWholeSeconds (n : Int) : Except Fault Int :=
  if n < 0 then .error .negativePause else .ok (n * 1000)

/-- The milliseconds of a delay kept as an integer number of milliseconds of any sign. -/
def ofDelay (n : Int) : Except Fault Int :=
  match Binary64.ofInt n with
  | .infinite _ => .error (.pauseTooLong false)
  | x => ofSeconds (x.div (.ofInt 1000))

end Deskhand.Pause
