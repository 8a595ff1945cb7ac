import Deskhand.Proofs.Outcome
import Deskhand.Proofs.Parts

/-!
# What the parts of a macro run leave alone

Preparing a line, replacing names, drawing, printing and pausing change nothing of a machine but its
random numbers and its trace. So they keep every relation between machines that does not look at these
two. What evaluating an expression keeps is up to the expression; a run may be known to evaluate only
expressions of one kind.
-/

namespace Deskhand.Script

namespace Macro

variable {α ε : Type} {R : Machine → Machine → Prop}

section Unobserved

variable (hR : ∀ m random trace, R m { m with random, trace })

include hR

/-- Printing changes the trace alone. -/
theorem keeps_print (line : Text) : Keeps R (print line) := by
  refine ⟨fun m ↦ ?_⟩
  unfold print onMedia Act.emit
  cases m.trace.room with
  | zero => exact .exhausted
  | succ room => exact .ok (hR m m.random _)

/-- Pausing changes the trace alone. -/
theorem keeps_pause (length : Except Hid.Fault Int) : Keeps R (pause length) := by
  refine ⟨fun m ↦ ?_⟩
  cases length with
  | error fault => exact .failed (hR m m.random m.trace)
  | ok ms =>
    have hp : pause (.ok ms) = onMedia (Act.emit (.pause ms)) := rfl
    rw [hp]
    unfold onMedia Act.emit
    cases m.trace.room with
    | zero => exact .exhausted
    | succ room => exact .ok (hR m m.random _)

private theorem keeps_drawBelow (n : Nat) : Keeps R (drawBelow n) := by
  refine ⟨fun m ↦ ?_⟩
  unfold drawBelow
  cases m.random.draws with
  | zero => exact .exhausted
  | succ draws => exact .ok (hR m _ m.trace)

end Unobserved

variable [IsPreorder Machine R]

/-- A failure of its own keeps the machine. -/
theorem keeps_fail (fault : Fault) : Keeps R (fail fault : Macro α) := Keeps.failed fault

/-- Taking over a result keeps the machine. -/
theorem keeps_ofExcept (f : ε → Fault) (r : Except ε α) : Keeps R (ofExcept f r) := by
  cases r with
  | ok a => exact Keeps.pure a
  | error e => exact keeps_fail (f e)

private theorem keeps_integerText (n : Int) : Keeps R (integerText n) := by
  unfold integerText
  split
  · exact Keeps.pure _
  · exact keeps_fail _

private theorem keeps_display (v : Value) : Keeps R (display v) := by
  unfold display
  split
  · exact Keeps.pure _
  · exact keeps_fail _

private theorem keeps_replaceNames (line : Text) (names : Table Value) :
    Keeps R (replaceNames line names) := by
  induction names generalizing line with
  | nil => exact Keeps.pure line
  | cons entry rest ih => exact Keeps.bind (keeps_display entry.2) fun shown ↦ ih _

/-- Replacing variables keeps the machine. -/
theorem keeps_replaceVariables (line : Text) : Keeps R (replaceVariables line) :=
  Keeps.bind Keeps.get fun m ↦ Keeps.bind (keeps_replaceNames line m.variables) fun line ↦
    Keeps.bind Keeps.get fun m ↦ keeps_replaceNames line m.internals

/-- Replacing defined words keeps the machine. -/
theorem keeps_replaceDefines (line : Text) : Keeps R (replaceDefines line) :=
  Keeps.bind Keeps.get fun _ ↦ Keeps.pure _

/-- The calculator keeps the machine. -/
theorem keeps_calculator (t : Text) : Keeps R (Evaluator.calculator.eval t) := keeps_ofExcept _ _

/-- Evaluating an expression keeps what the meaning of every text keeps. -/
theorem keeps_evaluate [Evaluator] (h : ∀ t, Keeps R (Evaluator.eval t)) (t : Text) :
    Keeps R (evaluate t) := by
  refine Keeps.bind Keeps.get fun m ↦ ?_
  split
  · exact keeps_fail _
  · exact h _

private theorem keeps_bound (name : Text) (otherwise : Int) : Keeps R (bound name otherwise) := by
  refine Keeps.bind Keeps.get fun m ↦ ?_
  split
  · exact Keeps.pure _
  · refine Keeps.bind (keeps_ofExcept _ _) fun v ↦ ?_
    split
    · exact Keeps.pure _
    · exact Keeps.pure _

section Unobserved

variable (hR : ∀ m random trace, R m { m with random, trace })

include hR

/-- Pausing for the default delay changes the trace alone. -/
theorem keeps_defaultPause : Keeps R defaultPause :=
  Keeps.bind Keeps.get fun _ ↦ keeps_pause hR _

private theorem keeps_drawBetween (low high : Int) : Keeps R (drawBetween low high) := by
  unfold drawBetween
  split
  · exact keeps_fail _
  · exact Keeps.bind (keeps_drawBelow hR _) fun _ ↦ Keeps.pure _

/-- Drawing a character changes the random numbers alone. -/
theorem keeps_drawChar (pool : Text) : Keeps R (drawChar pool) :=
  Keeps.bind (keeps_drawBelow hR _) fun _ ↦ Keeps.pure _

/-- Preparing a line changes the random numbers alone. -/
theorem keeps_prepare (line : Text) : Keeps R (prepare line) := by
  unfold prepare
  refine Keeps.bind (keeps_bound _ _) fun low ↦ ?_
  refine Keeps.bind (keeps_bound _ _) fun high ↦ ?_
  refine Keeps.bind (keeps_drawBetween hR low high) fun n ↦ ?_
  exact Keeps.bind (keeps_integerText n) fun t ↦ keeps_replaceDefines _

end Unobserved

end Macro

/-! ### Runs with expressions of one kind -/

/-- Expressions that are not in `ok`, in the machine at hand, give up. -/
@[reducible]
noncomputable def Evaluator.only (E : Evaluator) (ok : Text → Machine → Prop) : Evaluator where
  eval t := fun m ↦ open Classical in if ok t m then E.eval t m else .error .exhausted m

/-- The work evaluates no expressions but those in `ok`: it does not notice if all others give up. -/
def EvaluatesOnly [E : Evaluator] {ρ : Type} (ok : Text → Machine → Prop)
    (work : Evaluator → Machine → ρ) (m : Machine) : Prop := work (E.only ok) m = work E m

/-- Computing the text leaves a machine that is related to the one at hand. -/
def Evaluator.Leaves [Evaluator] (R : Machine → Machine → Prop) (t : Text) (m : Machine) : Prop :=
  R m (leftState (eval t m))

/-- If all expressions are in `ok`, none gives up. -/
theorem Evaluator.only_eq_self (E : Evaluator) {ok : Text → Machine → Prop} (h : ∀ t m, ok t m) :
    E.only ok = E := by
  obtain ⟨eval⟩ := E
  simp [only, h]

/-- Expressions that leave related machines keep the relation. -/
theorem Evaluator.keeps_leaves [E : Evaluator] (R : Machine → Machine → Prop) (t : Text) :
    Keeps R ((E.only (Leaves R)).eval t) := by
  refine ⟨fun m ↦ ?_⟩
  by_cases hok : Leaves R t m
  · have heval : (E.only (Leaves R)).eval t m = E.eval t m := if_pos hok
    rw [heval]
    unfold Leaves at hok
    generalize E.eval t m = r at hok
    match r, hok with
    | .ok a m', hr => exact .ok hr
    | .error (.failed fault) m', hr => exact .failed hr
    | .error .exhausted m', _ => exact .exhausted
  · have heval : (E.only (Leaves R)).eval t m = .error .exhausted m := if_neg hok
    rw [heval]
    exact .exhausted

/-- The calculator leaves the machine as it is. -/
theorem evaluatesOnly_calculator {R : Machine → Machine → Prop} [IsPreorder Machine R] {ρ : Type}
    (work : Evaluator → Machine → ρ) (m : Machine) : EvaluatesOnly (Evaluator.Leaves R) work m := by
  unfold EvaluatesOnly
  rw [Evaluator.only_eq_self]
  intro t m
  unfold Evaluator.Leaves
  rw [Evaluator.eval_calculator]
  cases Script.evaluate t <;> exact refl_of R m

end Deskhand.Script
