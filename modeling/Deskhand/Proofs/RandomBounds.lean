import Deskhand.Proofs.Editing
import Deskhand.Proofs.IntegerText
import Deskhand.Proofs.Variables

/-!
# What the random bounds do to other commands

A number is drawn for every line, whether or not the line uses it, and every variable is shown for a
command that types or prints. So the two bounds matter to lines that do not name them: without a
number to draw no line is prepared, and with a bound that cannot be shown nothing is typed or
printed. Apart from that, a command that does not name the bounds has the same outcome with the
usual ones.
-/

namespace Deskhand

/-- A table with several keys set one after the other. -/
def Table.putAll {α : Type} (t changes : Table α) : Table α :=
  changes.foldl (fun t (key, value) ↦ t.put key value) t

namespace Script

/-- The name of the lower bound of the random numbers. -/
def minName : Text := "$_RANDOM_MIN"

/-- The name of the upper bound of the random numbers. -/
def maxName : Text := "$_RANDOM_MAX"

/-! ### The bounds stand first among the variables -/

/-- Variables that begin with the two bounds. -/
def withBounds (low high : Value) (others : Table Value) : Table Value :=
  (minName, low) :: (maxName, high) :: others

/-- The table begins with the two bounds. -/
def BoundsFirst (values : Table Value) : Prop :=
  ∃ low high others, values = withBounds low high others

private theorem boundsFirst_put (values : Table Value) (name : Text) (v : Value)
    (h : BoundsFirst values) :
    BoundsFirst (values.put name v) := by
  obtain ⟨low, high, others, rfl⟩ := h
  by_cases hmin : minName = name
  · exact ⟨v, high, others, by simp [withBounds, Table.put, hmin]⟩
  · by_cases hmax : maxName = name
    · exact ⟨low, v, others, by simp [withBounds, Table.put, hmin, hmax]⟩
    · exact ⟨low, high, others.put name v, by simp [withBounds, Table.put, hmin, hmax]⟩

private theorem get?_bounds {values others : Table Value} {low high : Value}
    (h : values = withBounds low high others) :
    values.get? minName = some low ∧ values.get? maxName = some high := by
  rw [h]
  exact ⟨rfl, rfl⟩

/-- Whatever scripts and messages a fresh machine is given, the bounds stay in front, unless an
expression takes them from there. -/
theorem boundsFirst_of_runAll [Evaluator] {jobs : List Job} {seed : UInt64} {room draws : Nat}
    {m : Machine} (he : EvaluatesOnly (Evaluator.Leaves (Maintains BoundsFirst))
      (fun E ↦ @Job.runAll E jobs) (.fresh seed room draws))
    (h : Job.runAll jobs (Machine.fresh seed room draws) = .ok () m) : BoundsFirst m.variables := by
  have hsteps := @keptBySteps_maintains BoundsFirst (Evaluator.only _ _)
    (Evaluator.keeps_leaves _) fun t _ name _ v _ ↦ boundsFirst_put t name v
  have hrun := (@OneRun.runAll (Evaluator.only _ _) _ (@KeptBySteps.oneRun _ (Evaluator.only _ _) _
    hsteps) jobs)
  exact hrun.of_ok (Eq.trans he h) ⟨.int 0, .int 65535, [], rfl⟩

/-- The machine with the usual bounds. -/
def Machine.usualBounds (m : Machine) : Machine :=
  m.withVariables ((m.variables.put minName (.int 0)).put maxName (.int 65535))

/-- A machine with another source of random numbers. -/
def Machine.withRandom (m : Machine) (random : Random) : Machine := { m with random }

section UsualBounds

variable (m : Machine)

/-- The usual bounds leave the random numbers alone. -/
@[simp]
theorem random_usualBounds : m.usualBounds.random = m.random := rfl

/-- The random numbers may change before or after the bounds. -/
theorem withRandom_usualBounds (random : Random) :
    m.usualBounds.withRandom random = (m.withRandom random).usualBounds := rfl

/-- The usual bounds stand in front where bounds stood in front. -/
theorem boundsFirst_usualBounds (h : BoundsFirst m.variables) :
    BoundsFirst m.usualBounds.variables :=
  boundsFirst_put _ _ _ (boundsFirst_put _ _ _ h)

end UsualBounds

/-- The usual bounds stand in the place of the others. -/
theorem usualBounds_eq {m : Machine} {low high : Value} {others : Table Value}
    (h : m.variables = withBounds low high others) :
    m.usualBounds = m.withVariables (withBounds (.int 0) (.int 65535) others) := by
  have hne : maxName ≠ minName := by decide
  rw [Machine.usualBounds, h]
  simp [withBounds, Table.put, hne.symm]

/-! ### The number drawn for a line -/

/-- The value of a bound, or the usual one if it has none. -/
def Machine.boundValue (m : Machine) (name : Text) (otherwise : Int) : Value :=
  (m.variables.get? name).getD (.int otherwise)

/-- A bound that has a value has it. -/
theorem boundValue_of_get? {m : Machine} {name : Text} {v : Value}
    (h : m.variables.get? name = some v) (otherwise : Int) : m.boundValue name otherwise = v := by
  rw [Machine.boundValue, h, Option.getD_some]

/-- The machine draws this number for the next line: its bounds stand for integers, the lower one is
not above the upper one, and the number can be written. -/
structure Machine.Draws (m : Machine) (n : Int) (shown : Text) : Prop where
  bounds : ∃ low high, toInteger (m.boundValue minName 0) = .ok (.int low) ∧
    toInteger (m.boundValue maxName 65535) = .ok (.int high) ∧ low ≤ high ∧
    n = low + ((Random.advance m.random.state >>> 33).toNat % (high - low + 1).toNat : Nat)
  shown : Number.intText? n = some shown

/-- A number can be drawn for the next line. -/
def Machine.CanDraw (m : Machine) : Prop := ∃ n shown, m.Draws n shown

/-- The source of random numbers after a draw. -/
def Random.next (r : Random) : Random := ⟨Random.advance r.state, r.draws - 1⟩

/-- The line as it is understood, if it does not use the random number. -/
def Machine.understood (m : Machine) (text : Text) : Text :=
  m.defines.foldl (fun line (word, value) ↦ Text.replaceAll line word value) (Text.trim text)

/-- The usual bounds change nothing about defined words. -/
@[simp]
theorem understood_usualBounds (m : Machine) (text : Text) :
    m.usualBounds.understood text = m.understood text := rfl

/-- What a line has after trimming and keeps when a defined word is replaced, it has as it is
understood. -/
theorem Machine.understood_induction {m : Machine} {text : Text} {P : Text → Prop}
    (htrim : P (Text.trim text))
    (hword : ∀ entry ∈ m.defines, ∀ t, P t → P (Text.replaceAll t entry.1 entry.2)) :
    P (m.understood text) := by
  have hfold : ∀ defines : Table Text,
      (∀ entry ∈ defines, ∀ t, P t → P (Text.replaceAll t entry.1 entry.2)) → ∀ t, P t →
        P (defines.foldl (fun line entry ↦ Text.replaceAll line entry.1 entry.2) t) := by
    intro defines h
    induction defines with
    | nil => exact fun t ht ↦ ht
    | cons entry rest ih =>
      intro t ht
      exact ih (fun e he ↦ h e (List.mem_cons_of_mem _ he)) _ (h entry List.mem_cons_self t ht)
  exact hfold m.defines hword _ htrim

/-- A line in which no defined word occurs is understood as it stands. -/
theorem understood_of_not_infix {m : Machine} {text : Text}
    (h : ∀ word ∈ m.defines.keys, ¬ word <:+: Text.trim text) :
    m.understood text = Text.trim text := by
  refine Machine.understood_induction (P := (· = Text.trim text)) rfl fun entry he t ht ↦ ?_
  rw [ht]
  exact Text.replaceAll_of_not_infix (h entry.1 (List.mem_map_of_mem he))

/-- What stands for an integer is one. -/
theorem exists_int_of_toInteger {v w : Value} (h : toInteger v = .ok w) : ∃ n, w = .int n := by
  unfold toInteger at h
  split at h
  · next t =>
    cases hr : Number.readInt t with
    | ok n =>
      rw [hr] at h
      exact ⟨n, (Except.ok.inj h).symm⟩
    | error e =>
      rw [hr] at h
      cases h
  · next x =>
    cases x with
    | finite s k e => exact ⟨_, (Except.ok.inj h).symm⟩
    | infinite s => cases h
    | nan => cases h
  · split at h
    · exact ⟨_, (Except.ok.inj h).symm⟩
    · cases h
  · split at h
    · exact ⟨_, (Except.ok.inj h).symm⟩
    · cases h

namespace Macro

/-- A bound that stands for an integer is that integer. -/
theorem bound_of_ok {m : Machine} {name : Text} {otherwise n : Int}
    (hn : toInteger (m.boundValue name otherwise) = .ok (.int n)) :
    bound name otherwise m = .ok n m := by
  unfold Machine.boundValue at hn
  rw [bound, bind_of_ok (run_get m)]
  cases hv : m.variables.get? name with
  | none =>
    rw [hv] at hn
    cases hn
    rfl
  | some v =>
    rw [hv, Option.getD_some] at hn
    dsimp only
    rw [hn]
    rfl

/-- A bound that stands for no integer is a failure. -/
theorem bound_of_error {m : Machine} {name : Text} {otherwise : Int} {e : ExprError}
    (he : toInteger (m.boundValue name otherwise) = .error e) :
    bound name otherwise m = .error (.failed (.expression e)) m := by
  unfold Machine.boundValue at he
  rw [bound, bind_of_ok (run_get m)]
  cases hv : m.variables.get? name with
  | none =>
    rw [hv] at he
    cases he
  | some v =>
    rw [hv, Option.getD_some] at he
    dsimp only
    rw [he]
    rfl

/-- A number is drawn between bounds that are in order, as long as the allowance lasts. -/
theorem drawBetween_of_le {m : Machine} {low high : Int} (h : low ≤ high)
    (hd : 0 < m.random.draws) : drawBetween low high m =
      .ok (low + ((Random.advance m.random.state >>> 33).toNat % (high - low + 1).toNat : Nat))
        (m.withRandom m.random.next) := by
  obtain ⟨draws, hdraws⟩ : ∃ draws, m.random.draws = draws + 1 := ⟨m.random.draws - 1, by omega⟩
  have hbelow : drawBelow (high - low + 1).toNat m =
      .ok ((Random.advance m.random.state >>> 33).toNat % (high - low + 1).toNat)
        (m.withRandom m.random.next) := by
    unfold drawBelow Random.next
    rw [hdraws]
    rfl
  rw [drawBetween, if_neg (by omega), bind_of_ok hbelow]
  rfl

/-- Preparing a line looks at both bounds before anything else. -/
theorem prepare_eq (text : Text) :
    prepare text = bound minName 0 >>= fun low ↦ bound maxName 65535 >>= fun high ↦
      drawBetween low high >>= fun n ↦ integerText n >>= fun shown ↦
        replaceDefines (Text.replaceAll (Text.trim text) "$_RANDOM_INT" shown) := rfl

private theorem replaceDefines_trim (text : Text) (m : Machine) (random : Random) :
    replaceDefines (Text.trim text) (m.withRandom random) =
      .ok (m.understood text) (m.withRandom random) := rfl

/-- A line that does not use the random number is prepared, at the cost of a draw. -/
theorem prepare_of_draws {m : Machine} {n : Int} {shown text : Text} (h : m.Draws n shown)
    (hd : 0 < m.random.draws) (ht : ¬ "$_RANDOM_INT".toList <:+: Text.trim text) :
    prepare text m = .ok (m.understood text) (m.withRandom m.random.next) := by
  obtain ⟨⟨low, high, hlow, hhigh, hle, hn⟩, hs⟩ := h
  have htext : integerText n (m.withRandom m.random.next) =
      .ok shown (m.withRandom m.random.next) := by
    unfold integerText
    rw [hs]
    rfl
  have hdraw := drawBetween_of_le hle hd
  rw [← hn] at hdraw
  rw [prepare_eq, bind_of_ok (bound_of_ok hlow), bind_of_ok (bound_of_ok hhigh), bind_of_ok hdraw,
    bind_of_ok htext, Text.replaceAll_of_not_infix ht]
  exact replaceDefines_trim text m m.random.next

/-- Without a draw left, no line is prepared. -/
theorem prepare_exhausted {m : Machine} {n : Int} {shown : Text} (h : m.Draws n shown)
    (hd : m.random.draws = 0) (text : Text) : prepare text m = .error .exhausted m := by
  obtain ⟨⟨low, high, hlow, hhigh, hle, -⟩, -⟩ := h
  have hnone : drawBelow (high - low + 1).toNat m = .error .exhausted m := by
    unfold drawBelow
    rw [hd]
  have hdraw : drawBetween low high m = .error .exhausted m := by
    rw [drawBetween, if_neg (by omega), bind_of_error hnone]
  rw [prepare_eq, bind_of_ok (bound_of_ok hlow), bind_of_ok (bound_of_ok hhigh),
    bind_of_error hdraw]

end Macro

/-- The work fails and leaves the machine as it was, but for its random numbers. -/
def Fruitless {α : Type} (m : Machine) (r : EStateM.Result (Halt Fault) Machine α) : Prop :=
  ∃ fault random, r = .error (.failed fault) (m.withRandom random)

namespace Macro

/-- Where no number can be drawn, no line is prepared. -/
theorem prepare_fruitless {m : Machine} (h : ¬ m.CanDraw) (hd : 0 < m.random.draws) (text : Text) :
    Fruitless m (prepare text m) := by
  rw [prepare_eq]
  cases hlow : toInteger (m.boundValue minName 0) with
  | error e =>
    exact ⟨_, m.random, bind_of_error (bound_of_error hlow)⟩
  | ok wlow =>
    obtain ⟨low, rfl⟩ := exists_int_of_toInteger hlow
    rw [bind_of_ok (bound_of_ok hlow)]
    cases hhigh : toInteger (m.boundValue maxName 65535) with
    | error e => exact ⟨_, m.random, bind_of_error (bound_of_error hhigh)⟩
    | ok whigh =>
      obtain ⟨high, rfl⟩ := exists_int_of_toInteger hhigh
      rw [bind_of_ok (bound_of_ok hhigh)]
      by_cases hle : low ≤ high
      · rw [bind_of_ok (drawBetween_of_le hle hd)]
        cases hs : Number.intText? (low +
            ((Random.advance m.random.state >>> 33).toNat % (high - low + 1).toNat : Nat)) with
        | some shown =>
          exact absurd ⟨_, shown, ⟨⟨low, high, hlow, hhigh, hle, rfl⟩, hs⟩⟩ h
        | none =>
          refine ⟨.expression .tooManyDigits, m.random.next, bind_of_error ?_⟩
          unfold integerText
          rw [hs]
          rfl
      · refine ⟨.emptyRange low high, m.random, bind_of_error ?_⟩
        rw [drawBetween, if_pos (by omega)]
        rfl

/-! ### Texts that do not name the bounds -/

/-- The characters since a dollar sign, if there is one. -/
def pending : Option Text → Text
  | none => []
  | some w => '$' :: w.reverse

/-- What is put into an expression depends on the variables that it names. -/
theorem substitute_congr {values values' : Table Value} {name : Option Text} {t : Text}
    (h : ∀ part, part <:+: pending name ++ t → values.get? part = values'.get? part) :
    substitute values name t = substitute values' name t := by
  have hvalue : ∀ w, '$' :: w <:+: pending name ++ t →
      substitute.value values w = substitute.value values' w := by
    intro w hw
    unfold substitute.value
    rw [h _ hw]
  induction t generalizing name with
  | nil =>
    match name with
    | none => rfl
    | some [] => rfl
    | some (c :: w) => exact hvalue _ (List.prefix_append _ _).isInfix
  | cons c rest ih =>
    have hrest : rest <:+: pending name ++ c :: rest :=
      ((List.suffix_cons c rest).trans (List.suffix_append _ _)).isInfix
    -- a rest that is read from the beginning or after a further dollar sign
    have hnone : substitute values none rest = substitute values' none rest :=
      ih (fun part hp ↦ h part (hp.trans hrest)) fun w hw ↦ hvalue w (hw.trans hrest)
    have hdollar : c = '$' →
        substitute values (some []) rest = substitute values' (some []) rest := by
      rintro rfl
      have hinfix : pending (some []) ++ rest <:+: pending name ++ '$' :: rest :=
        (List.suffix_append _ _).isInfix
      exact ih (fun part hp ↦ h part (hp.trans hinfix)) fun w hw ↦ hvalue w (hw.trans hinfix)
    match name with
    | none =>
      rw [substitute, substitute]
      split
      · next hc => exact hdollar (by simpa using hc)
      · rw [hnone]
    | some w =>
      rw [substitute, substitute]
      split
      · have hword : pending (some (c :: w)) ++ rest = pending (some w) ++ c :: rest := by
          simp [pending]
        refine ih (fun part hp ↦ h part ?_) fun w' hw ↦ hvalue w' ?_
        · rwa [← hword]
        · rwa [← hword]
      · have hshown : substitute.value values w.reverse = substitute.value values' w.reverse :=
          hvalue _ (List.prefix_append _ _).isInfix
        rw [hshown, hnone]
        by_cases hc : c = '$'
        · rw [hdollar hc]
        · have hc' : (c == '$') = false := by simpa using hc
          rw [hc']
          rfl

/-- The value of an expression in which the variables are replaced already. -/
def evaluated [Evaluator] : Option Text → Macro Value
  | none => fail (.expression .tooManyDigits)
  | some t => Evaluator.eval (expressionText t)

/-- An expression is evaluated after its variables were replaced. -/
theorem evaluate_eq_evaluated [Evaluator] (t : Text) (m : Machine) :
    evaluate t m = evaluated (substitute m.variables none t) m := by
  rw [evaluate, bind_of_ok (run_get m)]
  cases substitute m.variables none t <;> rfl

/-- The work is a value or a failure, whatever the machine. -/
inductive Decided {α : Type} (act : Macro α) : Prop where
  | value (a : α) (h : act = pure a)
  | failure (fault : Fault) (h : act = fail fault)

/-- Work in sequence is decided if its parts are. -/
theorem Decided.bind {α β : Type} {act : Macro α} {next : α → Macro β} (ha : Decided act)
    (hn : ∀ a, Decided (next a)) : Decided (act >>= next) := by
  cases ha with
  | value a h =>
    rw [h, pure_bind]
    exact hn a
  | failure fault h =>
    rw [h]
    exact .failure fault rfl

/-- The calculator is decided once the variables are replaced. -/
theorem decided_evaluated (t : Option Text) : Decided (evaluated t) := by
  cases t with
  | none => exact .failure _ rfl
  | some t =>
    rw [evaluated, Evaluator.eval_calculator]
    cases Script.evaluate (expressionText t) with
    | ok v => exact .value v rfl
    | error e => exact .failure _ rfl

private theorem decided_display (v : Value) : Decided (display v) := by
  unfold display
  split
  · exact .value _ rfl
  · exact .failure _ rfl

/-- Replacing the names of a given table is decided. -/
theorem decided_replaceNames (t : Text) (names : Table Value) : Decided (replaceNames t names) := by
  induction names generalizing t with
  | nil => exact .value t rfl
  | cons entry rest ih => exact .bind (decided_display entry.2) fun shown ↦ ih _

/-- A name that does not occur is passed over, if its value can be shown. -/
theorem replaceNames_cons_of_not_infix {t name : Text} {v : Value} (hv : v.display? ≠ none)
    (ht : ¬ name <:+: t) (rest : Table Value) :
    replaceNames t ((name, v) :: rest) = replaceNames t rest := by
  obtain ⟨shown, hs⟩ := Option.ne_none_iff_exists'.mp hv
  have hd : display v = pure shown := by
    unfold display
    rw [hs]
  rw [replaceNames, hd, pure_bind, Text.replaceAll_of_not_infix ht]

/-- A value that cannot be shown stops the replacing of names, wherever it stands. -/
theorem replaceNames_of_hidden {names : Table Value} {entry : Text × Value} (he : entry ∈ names)
    (hv : entry.2.display? = none) (t : Text) :
    replaceNames t names = fail (.expression .tooManyDigits) := by
  induction names generalizing t with
  | nil => cases he
  | cons first rest ih =>
    rw [replaceNames]
    rcases List.mem_cons.mp he with rfl | he
    · unfold display
      rw [hv]
      rfl
    · unfold display
      split
      · rw [pure_bind]
        exact ih he _
      · rfl

end Macro

/-! ### Two runs of a line -/

/-- Both machines came from machines with these variables by the same changes: the same variables
were set to the same values, and but for the random numbers everything else is the same. -/
def SameChanges (values values' : Table Value) (m m' : Machine) : Prop :=
  ∃ changes random, m.variables = values.putAll changes ∧
    m' = { m with «variables» := values'.putAll changes, random }

/-- Both runs ended the same way, by the same changes. Where they failed, the reasons may differ. -/
inductive SameOutcome {α : Type} (values values' : Table Value) :
    EStateM.Result (Halt Fault) Machine α → EStateM.Result (Halt Fault) Machine α → Prop where
  | ok (a : α) {m m' : Machine} (h : SameChanges values values' m m') :
    SameOutcome values values' (.ok a m) (.ok a m')
  | failed {fault fault' : Fault} {m m' : Machine} (h : SameChanges values values' m m') :
    SameOutcome values values' (.error (.failed fault) m) (.error (.failed fault') m')
  | exhausted {m m' : Machine} (h : SameChanges values values' m m') :
    SameOutcome values values' (.error .exhausted m) (.error .exhausted m')

private theorem Macro.Blind.sameOutcome {α : Type} {act : Macro α} (h : Blind act) (m : Machine)
    (values : Table Value) :
    SameOutcome m.variables values (act m) (act (m.withVariables values)) := by
  have hm : act m = withVariables m.variables (act m) := h.eq m m.variables
  rw [h.eq, hm]
  match act m with
  | .ok a n => exact .ok a ⟨[], n.random, rfl, rfl⟩
  | .error (.failed fault) n => exact .failed ⟨[], n.random, rfl, rfl⟩
  | .error .exhausted n => exact .exhausted ⟨[], n.random, rfl, rfl⟩

/-- The text that a command types or prints. -/
def Command.operand : Command → Text
  | .type _ t | .print t => t
  | _ => []

/-- A command that opens no block and calls no function of the machine. -/
def Machine.Alone (m : Machine) : Command → Prop
  | .typeBlock _ | .loop _ => False
  | .other line => m.functions.get? line = none
  | _ => True

/-- Both bounds can be shown. -/
def Machine.ShowsBounds (m : Machine) : Prop :=
  ∀ name ∈ [minName, maxName], ∀ v, m.variables.get? name = some v → v.display? ≠ none

private theorem get?_withBounds {low high : Value} {others : Table Value} {name : Text}
    (hmin : name ≠ minName) (hmax : name ≠ maxName) :
    (withBounds low high others).get? name = others.get? name := by
  have hmin' : (name == minName) = false := by simpa using hmin
  have hmax' : (name == maxName) = false := by simpa using hmax
  rw [withBounds, Table.get?, List.lookup_cons, hmin', List.lookup_cons, hmax']
  rfl

/-- Both bounds can be shown if their values can. -/
theorem showsBounds_iff {m : Machine} {low high : Value}
    (hmin : m.variables.get? minName = some low) (hmax : m.variables.get? maxName = some high) :
    m.ShowsBounds ↔ low.display? ≠ none ∧ high.display? ≠ none := by
  constructor
  · intro hs
    exact ⟨hs minName (by simp) low hmin, hs maxName (by simp) high hmax⟩
  · rintro ⟨hlow, hhigh⟩ name hname v hv
    simp only [List.mem_cons, List.not_mem_nil, or_false] at hname
    rcases hname with rfl | rfl
    · obtain rfl := Option.some.inj (hmin.symm.trans hv)
      exact hlow
    · obtain rfl := Option.some.inj (hmax.symm.trans hv)
      exact hhigh

namespace Macro

variable {m : Machine} {low high : Value} {others : Table Value}

/-- With bounds that can be shown, a text that does not name them is treated as if they were not
there. -/
theorem replaceVariables_of_bounds {t : Text} (h : m.variables = withBounds low high others)
    (hlow : low.display? ≠ none) (hhigh : high.display? ≠ none) (hmin : ¬ minName <:+: t)
    (hmax : ¬ maxName <:+: t) : replaceVariables t m =
      (replaceNames t others >>= fun t ↦ replaceNames t m.internals) m := by
  rw [replaceVariables, bind_of_ok (run_get m), h, withBounds,
    replaceNames_cons_of_not_infix hlow hmin, replaceNames_cons_of_not_infix hhigh hmax]
  cases decided_replaceNames t others with
  | value u hu =>
    rw [hu, pure_bind, pure_bind]
    rfl
  | failure fault hf =>
    rw [hf]
    rfl

/-- With a value that cannot be shown, no text has its variables replaced. -/
theorem replaceVariables_of_display?_eq_none {entry : Text × Value}
    (he : entry ∈ m.variables ++ m.internals) (hv : entry.2.display? = none) (t : Text) :
    ∃ fault, replaceVariables t m = .error (.failed fault) m := by
  rw [replaceVariables, bind_of_ok (run_get m)]
  rcases List.mem_append.mp he with he | he
  · rw [replaceNames_of_hidden he hv]
    exact ⟨_, rfl⟩
  · cases decided_replaceNames t m.variables with
    | value u hu =>
      rw [hu, pure_bind, bind_of_ok (run_get m), replaceNames_of_hidden he hv]
      exact ⟨_, rfl⟩
    | failure fault hf =>
      rw [hf]
      exact ⟨fault, rfl⟩

/-- With a bound that cannot be shown, no text has its variables replaced. -/
theorem replaceVariables_of_hidden (h : m.variables = withBounds low high others)
    (hs : ¬ m.ShowsBounds) (t : Text) :
    ∃ fault, replaceVariables t m = .error (.failed fault) m := by
  have hhidden : ∃ entry ∈ m.variables, entry.2.display? = none := by
    obtain ⟨hmin, hmax⟩ := get?_bounds h
    rw [showsBounds_iff hmin hmax, Classical.not_and_iff_not_or_not, ne_eq, ne_eq,
      Classical.not_not, Classical.not_not] at hs
    rw [h]
    rcases hs with hs | hs
    · exact ⟨(minName, low), by simp [withBounds], hs⟩
    · exact ⟨(maxName, high), by simp [withBounds], hs⟩
  obtain ⟨entry, he, hv⟩ := hhidden
  exact replaceVariables_of_display?_eq_none (List.mem_append_left _ he) hv t

/-- Work that goes on blindly with a text in which variables are replaced has the same outcome with
the usual bounds. -/
theorem sameOutcome_replaceVariables {α : Type} {next : Text → Macro α} {t : Text}
    (h : m.variables = withBounds low high others) (hs : m.ShowsBounds) (hmin : ¬ minName <:+: t)
    (hmax : ¬ maxName <:+: t) (hn : ∀ t, Blind (next t)) :
    SameOutcome m.variables m.usualBounds.variables ((replaceVariables t >>= next) m)
      ((replaceVariables t >>= next) m.usualBounds) := by
  obtain ⟨hlow, hhigh⟩ := (showsBounds_iff (get?_bounds h).1 (get?_bounds h).2).mp hs
  have hm := replaceVariables_of_bounds h hlow hhigh hmin hmax
  have hm' : replaceVariables t m.usualBounds =
      (replaceNames t others >>= fun t ↦ replaceNames t m.internals) m.usualBounds := by
    have h' : m.usualBounds.variables = withBounds (.int 0) (.int 65535) others := by
      rw [usualBounds_eq h]
      rfl
    exact replaceVariables_of_bounds h' (by decide +kernel) (by decide +kernel) hmin hmax
  have hd : Decided (replaceNames t others >>= fun t ↦ replaceNames t m.internals) :=
    .bind (decided_replaceNames t others) fun u ↦ decided_replaceNames u m.internals
  cases hd with
  | value u hu =>
    rw [hu] at hm hm'
    rw [bind_of_ok hm, bind_of_ok hm']
    exact (hn u).sameOutcome m _
  | failure fault hf =>
    rw [hf] at hm hm'
    rw [bind_of_error hm, bind_of_error hm']
    exact .failed ⟨[], m.random, rfl, rfl⟩

end Macro

/-- Evaluating the expression has the same outcome with the usual bounds, and if it fails, it leaves
the variables alone. -/
structure Machine.SameValue [Evaluator] (m : Machine) (e : Text) : Prop where
  outcome : SameOutcome m.variables m.usualBounds.variables (Macro.evaluate e m)
    (Macro.evaluate e m.usualBounds)
  failed : Ends (fun _ _ ↦ True) (SameVariables m.usualBounds) (Macro.evaluate e m.usualBounds)

/-- To the calculator an expression that does not name the bounds has the same value with the usual
ones. -/
theorem sameValue_of_not_infix {m : Machine} {e : Text} (hb : BoundsFirst m.variables)
    (hmin : ¬ minName <:+: e) (hmax : ¬ maxName <:+: e) : m.SameValue e := by
  obtain ⟨low, high, others, h⟩ := hb
  have hsub : Macro.substitute m.usualBounds.variables none e =
      Macro.substitute m.variables none e := by
    refine Macro.substitute_congr fun part hp ↦ ?_
    have hpmin : part ≠ minName := fun he ↦ hmin (he ▸ hp)
    have hpmax : part ≠ maxName := fun he ↦ hmax (he ▸ hp)
    rw [usualBounds_eq h, h]
    exact (get?_withBounds hpmin hpmax).trans (get?_withBounds hpmin hpmax).symm
  have hm := Macro.evaluate_eq_evaluated e m
  have hm' := Macro.evaluate_eq_evaluated e m.usualBounds
  rw [hsub] at hm'
  cases Macro.decided_evaluated (Macro.substitute m.variables none e) with
  | value v hv =>
    rw [hv] at hm hm'
    refine ⟨?_, ?_⟩
    · rw [hm, hm']
      exact .ok v ⟨[], m.random, rfl, rfl⟩
    · rw [hm']
      exact .ok trivial
  | failure fault hf =>
    rw [hf] at hm hm'
    refine ⟨?_, ?_⟩
    · rw [hm, hm']
      exact .failed ⟨[], m.random, rfl, rfl⟩
    · rw [hm']
      exact .failed rfl

namespace Macro

variable [Evaluator] {m : Machine} {low high : Value} {others : Table Value}

/-- Setting a variable to the value of an expression has the same outcome as evaluating it. -/
theorem sameOutcome_assign {values values' : Table Value} {r r' : Machine} (name : Text) {e : Text}
    (h : SameOutcome values values' (evaluate e r) (evaluate e r')) (fuel : Nat)
    (execute : Text → List Text → Macro Nat) (rest : List Text) :
    SameOutcome values values' (perform fuel execute rest (.assign name e) r)
      (perform fuel execute rest (.assign name e) r') := by
  rw [perform]
  generalize hr : evaluate e r = first, hr' : evaluate e r' = second at h
  cases h with
  | ok v h =>
    obtain ⟨changes, random, hv, rfl⟩ := h
    rw [bind_of_ok hr, bind_of_ok hr']
    have hput : ∀ t : Table Value,
        (t.putAll changes).put name v = t.putAll (changes ++ [(name, v)]) := by
      simp [Table.putAll]
    exact .ok 0 ⟨changes ++ [(name, v)], random, by rw [← hput, ← hv], by rw [← hput]⟩
  | failed h =>
    rw [bind_of_error hr, bind_of_error hr']
    exact .failed h
  | exhausted h =>
    rw [bind_of_error hr, bind_of_error hr']
    exact .exhausted h

/-- A command that does not name the bounds has the same outcome with the usual ones, if the bounds
can be shown where variables are. -/
theorem sameOutcome_perform {command : Command} (h : m.variables = withBounds low high others)
    (ha : m.Alone command) (hmin : ¬ minName <:+: command.operand)
    (hmax : ¬ maxName <:+: command.operand) (he : ∀ name e, command = .assign name e → m.SameValue e)
    (hs : command.Shows → m.ShowsBounds) (fuel : Nat) (execute : Text → List Text → Macro Nat)
    (rest : List Text) :
    SameOutcome m.variables m.usualBounds.variables (perform fuel execute rest command m)
      (perform fuel execute rest command m.usualBounds) := by
  cases command with
  | type enter t => exact sameOutcome_replaceVariables h (hs trivial) hmin hmax (blind_type enter)
  | print t =>
    exact sameOutcome_replaceVariables h (hs trivial) hmin hmax fun t ↦
      .bind (.onMedia _) fun _ ↦ .pure 0
  | assign name e => exact sameOutcome_assign name (he name e rfl).outcome fuel execute rest
  | other line =>
    have hnone : ∀ n : Machine, n.functions.get? line = none →
        perform fuel execute rest (.other line) n = (pressLine line >>= fun _ ↦ pure 0) n := by
      intro n hn
      rw [perform, bind_of_ok (run_get n), hn]
    rw [hnone m ha, hnone m.usualBounds ha]
    exact (Blind.bind (blind_pressLine line) fun _ ↦ .pure 0).sameOutcome m _
  | typeBlock enter => exact ha.elim
  | loop guard => exact ha.elim
  | _ => exact (blind_perform (by trivial) fuel execute rest).sameOutcome m _

/-- A command that shows variables comes to nothing if a bound cannot be shown. -/
theorem perform_fruitless {command : Command} (h : m.variables = withBounds low high others)
    (ha : m.Alone command) (hc : command.Shows) (hs : ¬ m.ShowsBounds) (fuel : Nat)
    (execute : Text → List Text → Macro Nat) (rest : List Text) :
    Fruitless m (perform fuel execute rest command m) := by
  have hm : ∀ {t : Text} {next : Text → Macro Nat}, Fruitless m ((replaceVariables t >>= next) m) := by
    intro t next
    obtain ⟨fault, hfault⟩ := replaceVariables_of_hidden h hs t
    exact ⟨fault, m.random, bind_of_error hfault⟩
  cases command with
  | type enter t => exact hm
  | print t => exact hm
  | typeBlock enter => exact ha.elim
  | _ => exact hc.elim

/-- A command that executes no further lines changes no variable if it fails, unless its expression
does. -/
theorem sameVariables_of_failed {command : Command} (ha : m.Alone command)
    (he : ∀ name e, command = .assign name e →
      Ends (fun _ _ ↦ True) (SameVariables m) (evaluate e m)) (fuel : Nat)
    (execute : Text → List Text → Macro Nat) (rest : List Text) :
    Ends (fun _ _ ↦ True) (SameVariables m) (perform fuel execute rest command m) := by
  cases command with
  | assign name e => exact Ends.bind ((he name e rfl).mono (fun _ _ _ ↦ .ok trivial) fun _ h ↦ h)
  | other line =>
    rw [perform, bind_of_ok (run_get m), show m.functions.get? line = none from ha]
    have hkeys := (outward_pressLine line).mono sameVariables_of_outward
    exact ((Keeps.bind hkeys fun _ ↦ Keeps.pure 0).ends m).mono (fun _ _ _ ↦ trivial) fun _ hn ↦ hn
  | typeBlock enter => exact ha.elim
  | loop guard => exact ha.elim
  | _ =>
    refine ((sameVariables_perform ?_ ?_ fuel execute rest).ends m).mono (fun _ _ _ ↦ trivial)
      fun _ hn ↦ hn
    · trivial
    · rintro _ _ ⟨⟩

end Macro

end Script

end Deskhand
