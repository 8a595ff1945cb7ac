import Deskhand.Proofs.RunInvariant

/-!
# What a run does with its variables

Most commands neither look at the variables nor change them: in a machine with other variables they
do the same. Commands that type or print look at the variables, and only an assignment changes them,
by setting one. So what setting a variable keeps of their table, every run keeps.
-/

namespace Deskhand.Script

variable {α β : Type}

/-- A machine with other variables. -/
def Machine.withVariables (m : Machine) (values : Table Value) : Machine :=
  { m with «variables» := values }

namespace Macro

/-- A result with other variables in the machine it leaves. -/
def withVariables (values : Table Value) :
    EStateM.Result (Halt Fault) Machine α → EStateM.Result (Halt Fault) Machine α
  | .ok a m => .ok a (m.withVariables values)
  | .error halt m => .error halt (m.withVariables values)

/-- The work does not depend on the variables and leaves them alone. -/
structure Blind (act : Macro α) : Prop where
  eq : ∀ m values, act (m.withVariables values) = withVariables values (act m)

namespace Blind

/-- A value is blind. -/
theorem pure (a : α) : Blind (pure a : Macro α) := ⟨fun _ _ ↦ rfl⟩

/-- A failure is blind. -/
theorem fail (fault : Fault) : Blind (fail fault : Macro α) := ⟨fun _ _ ↦ rfl⟩

/-- A change that has nothing to do with the variables is blind. -/
theorem modify {f : Machine → Machine}
    (h : ∀ m values, f (m.withVariables values) = (f m).withVariables values) :
    Blind (modify f : Macro PUnit) := by
  refine ⟨fun m values ↦ ?_⟩
  change EStateM.Result.ok _ (f (m.withVariables values)) = .ok _ ((f m).withVariables values)
  rw [h]

/-- Work in sequence is blind if its parts are. -/
theorem bind {act : Macro α} {next : α → Macro β} (ha : Blind act) (hn : ∀ a, Blind (next a)) :
    Blind (act >>= next) := by
  refine ⟨fun m values ↦ ?_⟩
  have hm := ha.eq m values
  cases hr : act m with
  | ok a m' =>
    rw [hr] at hm
    rw [bind_of_ok hr, bind_of_ok hm, (hn a).eq]
  | error halt m' =>
    rw [hr] at hm
    rw [bind_of_error hr, bind_of_error hm]
    rfl

/-- Work on the keyboard is blind. -/
theorem onKeyboard (act : Act Hid.KeyReport α) : Blind (onKeyboard act) := by
  refine ⟨fun m values ↦ ?_⟩
  change Macro.onKeyboard act { m with «variables» := values } = _
  unfold Macro.onKeyboard
  cases act ⟨m.keyboard, m.trace⟩ <;> rfl

/-- Work on the media keypad is blind. -/
theorem onMedia (act : Act Hid.MediaReport α) : Blind (onMedia act) := by
  refine ⟨fun m values ↦ ?_⟩
  change Macro.onMedia act { m with «variables» := values } = _
  unfold Macro.onMedia
  cases act ⟨m.media, m.trace⟩ <;> rfl

/-- A draw is blind. -/
theorem drawBelow (n : Nat) : Blind (drawBelow n) := by
  refine ⟨fun m values ↦ ?_⟩
  change Macro.drawBelow n { m with «variables» := values } = _
  unfold Macro.drawBelow
  cases m.random.draws <;> rfl

end Blind

end Macro

/-! ### Commands that do not look at the variables -/

/-- A command that neither looks at the variables nor changes them nor executes further lines. -/
def Command.IsBlind : Command → Prop
  | .typeBlock _ | .type .. | .print _ | .assign .. | .loop _ | .other _ => False
  | _ => True

namespace Macro

theorem blind_typeEnter : Blind typeEnter := .bind (.onKeyboard _) fun _ ↦ .onKeyboard _

/-- Typing a text and then the enter key, if wanted, is blind. -/
theorem blind_type (enter : Bool) (t : Text) :
    Blind (do
      typeText t
      if enter then typeEnter
      pure 0 : Macro Nat) := by
  refine .bind (.onKeyboard _) fun _ ↦ ?_
  split
  · exact .bind blind_typeEnter fun _ ↦ .pure 0
  · exact .pure 0

variable [Evaluator]

private theorem blind_parts : Parts (fun act _ ↦ Blind act) Command.IsBlind where
  pure := .pure
  bind := .bind
  fail _ := .fail _
  print _ := .onMedia _
  pause _ := .onMedia _
  typeText _ := .onKeyboard _
  typeEnter := blind_typeEnter
  hold _ _ := .onKeyboard _
  release _ _ := .onKeyboard _
  releaseAll _ := .onKeyboard _
  replaceVariables {command} h hs _ := by
    cases command with
    | typeBlock enter => exact h.elim
    | type enter t => exact h.elim
    | print t => exact h.elim
    | _ => exact hs.elim
  replaceDefines h := h.elim
  drawChar _ := .bind (.drawBelow _) fun _ ↦ .pure _
  evaluate h := h.elim
  assign h := h.elim
  defaultDelay _ _ := .modify fun _ _ ↦ rfl
  define _ := .modify fun _ _ ↦ rfl
  function _ _ := .modify fun _ _ ↦ rfl

/-- A line of keys is blind. -/
theorem blind_pressLine (line : Text) : Blind (pressLine line) := by
  refine blind_parts.pressLine (fun key ↦ ?_) (fun key ↦ ?_) line
  · unfold pressKey
    cases key with
    | key code => exact .onKeyboard _
    | media code => exact .onMedia _
  · unfold releaseKey
    cases key with
    | key code => exact .onKeyboard _
    | media code => exact .onMedia _

/-- A blind command is blind. -/
theorem blind_perform {command : Command} (h : command.IsBlind) (fuel : Nat)
    (execute : Text → List Text → Macro Nat) (rest : List Text) :
    Blind (perform fuel execute rest command) := by
  refine blind_parts.perform ?_ h fuel fuel execute execute fun _ ↦ rfl
  cases command <;> trivial

end Macro

/-! ### What changes the variables -/

/-- Setting a key adds no other entry. -/
theorem mem_put {t : Table α} {key : Text} {value : α} {entry : Text × α}
    (h : entry ∈ t.put key value) : entry ∈ t ∨ entry = (key, value) := by
  induction t with
  | nil => exact .inr (List.mem_singleton.mp h)
  | cons first rest ih =>
    obtain ⟨k, v⟩ := first
    rw [Table.put] at h
    split at h
    · next hk =>
      rcases List.mem_cons.mp h with rfl | h
      · exact .inr (by rw [eq_of_beq hk])
      · exact .inl (List.mem_cons_of_mem _ h)
    · rcases List.mem_cons.mp h with rfl | h
      · exact .inl List.mem_cons_self
      · exact (ih h).imp_left (List.mem_cons_of_mem _)

/-- A value that is looked up stands in the table. -/
theorem mem_of_get? {t : Table α} {key : Text} {value : α}
    (h : t.get? key = some value) : (key, value) ∈ t := by
  obtain ⟨before, after, rfl, -⟩ := List.lookup_eq_some_iff.mp h
  exact List.mem_append_right _ List.mem_cons_self

/-- Two machines with the same variables. -/
def SameVariables (m m' : Machine) : Prop := m'.variables = m.variables

instance : IsPreorder Machine SameVariables where
  refl _ := rfl
  trans _ _ _ h₁ h₂ := Eq.trans h₂ h₁

/-- Outward work leaves the variables alone. -/
theorem sameVariables_of_outward (m m' : Machine) (h : Outward m m') : SameVariables m m' := by
  obtain ⟨keyboard, media, random, trace, rfl⟩ := h
  rfl

/-- A single command leaves the variables alone, unless it is an assignment. -/
theorem Macro.sameVariables_perform [Evaluator] {command : Command} (hs : command.IsSingle)
    (ha : ∀ name e, command ≠ .assign name e) (fuel : Nat) (execute : Text → List Text → Macro Nat)
    (rest : List Text) :
    Keeps SameVariables (perform fuel execute rest command) := by
  cases command with
  | assign name e => exact absurd rfl (ha name e)
  | defaultDelay t =>
    exact Keeps.bind (keeps_ofExcept _ _) fun _ ↦ Keeps.bind (Keeps.modify fun _ ↦ rfl) fun _ ↦
      Keeps.pure 0
  | define word value => exact Keeps.bind (Keeps.modify fun _ ↦ rfl) fun _ ↦ Keeps.pure 0
  | function name =>
    cases name with
    | none => exact keeps_fail _
    | some name =>
      refine Keeps.bind (Keeps.modify fun _ ↦ rfl) fun _ ↦ ?_
      split
      · exact Keeps.pure _
      · exact keeps_fail _
  | _ => exact (outward_perform hs id fuel execute rest).mono sameVariables_of_outward

/-- If the variables of the first machine are in `I`, so are those of the second. -/
def Maintains (I : Table Value → Prop) (m m' : Machine) : Prop := I m.variables → I m'.variables

instance (I : Table Value → Prop) : IsPreorder Machine (Maintains I) where
  refl _ h := h
  trans _ _ _ h₁ h₂ h := h₂ (h₁ h)

section Maintains

variable {I : Table Value → Prop}

private theorem maintains_of_same (m m' : Machine) (h : SameVariables m m') : Maintains I m m' := by
  intro hI
  rwa [show m'.variables = m.variables from h]

private theorem maintains_of_writes [Evaluator] {line : Text} (hw : (Command.ofLine line).Writes)
    (fuel : Nat) (execute : Text → List Text → Macro Nat) (rest : List Text)
    (ha : ∀ name e, Command.ofLine line = .assign name e →
      Keeps (Maintains I) (Macro.perform fuel execute rest (.assign name e))) :
    Keeps (Maintains I) (Macro.perform fuel execute rest (.ofLine line)) := by
  by_cases hassign : ∃ name e, Command.ofLine line = .assign name e
  · obtain ⟨name, e, he⟩ := hassign
    rw [he]
    exact ha name e he
  · refine (Macro.sameVariables_perform ?_ (fun name e he ↦ hassign ⟨name, e, he⟩) fuel execute
      rest).mono maintains_of_same
    generalize Command.ofLine line = command at hw
    cases command <;> trivial

/-- What expressions and setting a variable that a line assigns keep of the table of variables, every
step of a run maintains. -/
theorem keptBySteps_maintains [Evaluator] (he : ∀ t, Keeps (Maintains I) (Evaluator.eval t))
    (hput : ∀ t line name e v, Command.ofLine line = .assign name e → I t → I (t.put name v)) :
    KeptBySteps (Maintains I) where
  outward m m' h := maintains_of_same m m' (sameVariables_of_outward m m' h)
  eval := he
  writes line hw fuel execute rest := by
    refine maintains_of_writes hw fuel execute rest fun name e hc ↦ ?_
    refine Keeps.bind (Macro.keeps_evaluate he e) fun v ↦ Keeps.bind ?_ fun _ ↦ Keeps.pure 0
    exact Keeps.modify fun m ↦ hput m.variables line name e v hc

end Maintains

end Deskhand.Script
