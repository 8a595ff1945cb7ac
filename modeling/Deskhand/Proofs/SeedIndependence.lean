import Deskhand.Proofs.Dollarless
import Deskhand.Proofs.NamePieces
import Mathlib.Data.List.DropRight

/-!
# Runs that do not depend on the seed

Every line draws a random number, whether or not it uses it. A script that does not mention random
numbers and defines no words never shows one: with another seed it makes the same events, ends in
the same way and leaves the same machine, apart from the state of the random numbers.

Two runs are compared step by step. They begin in machines that differ in that state alone, and
every line of the script leads from such machines to such machines.
-/

namespace Deskhand

/-! ### Two runs of the same work -/

section Couples

variable {ε σ α β : Type} {R R' : σ → σ → Prop}

/-- Two results with the same value or the same halt, in states that are related. -/
inductive Paired (R : σ → σ → Prop) : EStateM.Result ε σ α → EStateM.Result ε σ α → Prop where
  | ok (a : α) {s s' : σ} (h : R s s') : Paired R (.ok a s) (.ok a s')
  | error (e : ε) {s s' : σ} (h : R s s') : Paired R (.error e s) (.error e s')

theorem Paired.mono {r r' : EStateM.Result ε σ α} (h : Paired R r r')
    (hR : ∀ s s', R s s' → R' s s') : Paired R' r r' := by
  cases h with
  | ok a h => exact .ok a (hR _ _ h)
  | error e h => exact .error e (hR _ _ h)

/-- From related states two pieces of work lead to related results. -/
structure Couples (R : σ → σ → Prop) (act act' : EStateM ε σ α) : Prop where
  paired : ∀ s s', R s s' → Paired R (act s) (act' s')

namespace Couples

theorem pure (a : α) : Couples R (pure a : EStateM ε σ α) (pure a) := ⟨fun _ _ h ↦ .ok a h⟩

theorem throw (e : ε) : Couples R (throw e : EStateM ε σ α) (throw e) := ⟨fun _ _ h ↦ .error e h⟩

theorem modify {f : σ → σ} (h : ∀ s s', R s s' → R (f s) (f s')) :
    Couples R (modify f : EStateM ε σ PUnit) (modify f) := ⟨fun s s' hs ↦ .ok _ (h s s' hs)⟩

theorem get {next next' : σ → EStateM ε σ α} (hn : ∀ s s', R s s' → Couples R (next s) (next' s')) :
    Couples R (get >>= next) (get >>= next') := ⟨fun s s' hs ↦ (hn s s' hs).paired s s' hs⟩

/-- Work in sequence couples part by part. -/
theorem bind {act act' : EStateM ε σ α} {next next' : α → EStateM ε σ β} (ha : Couples R act act')
    (hn : ∀ a, Couples R (next a) (next' a)) : Couples R (act >>= next) (act' >>= next') := by
  refine ⟨fun s s' hs ↦ ?_⟩
  have hact := ha.paired s s' hs
  generalize hr : act s = r at hact
  generalize hr' : act' s' = r' at hact
  cases hact with
  | ok a h =>
    rw [bind_of_ok hr, bind_of_ok hr']
    exact (hn a).paired _ _ h
  | error e h =>
    rw [bind_of_error hr, bind_of_error hr']
    exact .error e h

end Couples

end Couples

namespace Script

open Macro

/-! ### Lines without random numbers and defined words -/

/-- A line that neither mentions random numbers nor, after leading blanks, begins a definition. -/
structure OrdinaryLine (line : Text) : Prop where
  random : ¬ "RANDOM".toList <:+: line
  define : ¬ "DEFINE".toList <+: Text.trimLeft line

namespace OrdinaryLine

variable {line : Text}

/-- The empty line is ordinary. -/
theorem nil : OrdinaryLine [] := ⟨by decide, by decide⟩

private theorem of_prefix {part : Text} (h : OrdinaryLine line) (hp : part <+: line) :
    OrdinaryLine part := by
  refine ⟨fun hr ↦ h.random (hr.trans hp.isInfix), fun hd ↦ h.define (hd.trans ?_)⟩
  obtain ⟨rest, rfl⟩ := hp
  rw [Text.trimLeft, Text.trimLeft, List.dropWhile_append]
  split
  · next hblank => rw [List.isEmpty_iff.mp hblank]; exact List.nil_prefix
  · exact List.prefix_append _ _

/-- An ordinary line is ordinary without its blanks. -/
theorem trim (h : OrdinaryLine line) : OrdinaryLine (Text.trim line) := by
  have hleft : OrdinaryLine (Text.trimLeft line) := by
    refine ⟨fun hr ↦ h.random (hr.trans (List.dropWhile_suffix _).isInfix), ?_⟩
    rw [Text.trimLeft, Text.trimLeft, List.dropWhile_idempotent]
    exact h.define
  exact hleft.of_prefix (Text.prefix_trimRight _)

/-- An ordinary line is ordinary without its comment. -/
theorem withoutComment (h : OrdinaryLine line) : OrdinaryLine (withoutComment line) :=
  (h.of_prefix (List.takeWhile_prefix _)).trim

end OrdinaryLine

/-! ### What ordinary lines ask for -/

/-- The name that a command assigns stands in the line, and a random command mentions random
numbers. -/
def Command.Mentioned (line : Text) : Command → Prop
  | .assign name _ => name <:+: line
  | .random .. => "RANDOM".toList <:+: line
  | _ => True

namespace Command

namespace Mentioned

variable {line : Text}

/-- Of two commands, the one that is chosen is mentioned if both are. -/
theorem ite {p : Prop} [Decidable p] {a b : Command} (ha : a.Mentioned line)
    (hb : b.Mentioned line) : (if p then a else b).Mentioned line := by
  split
  · exact ha
  · exact hb

/-- An assignment that was read is mentioned. -/
theorem assigned {r : Option (Text × Text)} {bad : Command}
    (hr : ∀ name e, r = some (name, e) → '$' :: name <:+: line) (hbad : bad.Mentioned line) :
    (match r with
      | some (name, e) => Command.assign ('$' :: name) e
      | none => bad).Mentioned line := by
  split
  · exact hr _ _ rfl
  · exact hbad

end Mentioned

end Command

/-! ### Machines that differ in the seed -/

/-- The random bounds are the usual ones, no words are defined and the lines of functions are
ordinary. -/
structure Machine.Ordinary (m : Machine) : Prop where
  lower : m.variables.get? minName = some (.int 0)
  upper : m.variables.get? maxName = some (.int 65535)
  defines : m.defines = []
  lines : ∀ entry ∈ m.functions, ∀ line ∈ entry.2, OrdinaryLine line

/-- What a machine does outward has nothing to do with its being ordinary. -/
theorem Machine.Ordinary.of_outward {m m' : Machine} (h : Outward m m') (hm : m.Ordinary) :
    m'.Ordinary := by
  obtain ⟨keyboard, media, random, trace, rfl⟩ := h
  exact ⟨hm.lower, hm.upper, hm.defines, hm.lines⟩

/-- Every number can be drawn in an ordinary machine. -/
theorem Machine.Ordinary.canDraw {m : Machine} (hm : m.Ordinary) : m.CanDraw :=
  (canDraw_iff_le (k := 5) hm.lower hm.upper (by decide) (by decide) (by decide)).mpr (by decide)

/-- In an ordinary machine a line is understood as it stands. -/
theorem Machine.Ordinary.understood {m : Machine} (hm : m.Ordinary) (text : Text) :
    m.understood text = Text.trim text := by
  rw [Machine.understood, hm.defines]
  rfl

namespace Macro

variable {α : Type}

variable [Evaluator] (he : ∀ t, Couples Twins (Evaluator.eval t) (Evaluator.eval t))

include he

end Macro

end Script

end Deskhand
