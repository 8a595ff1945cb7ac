import Deskhand.Proofs.Lifting

/-!
# With which faults a run ends

The interpreter has faults of its own, none of which asks the program to exit. Only an expression can
ask for that, and its fault is passed on as it is.
-/

namespace Deskhand.Script

variable {α β : Type} {P : Fault → Prop}

/-- The work fails only with faults in `P`. -/
structure FailsWith (P : Fault → Prop) (act : Macro α) : Prop where
  fault : ∀ m fault m', act m = .error (.failed fault) m' → P fault

namespace FailsWith

/-- Work in sequence fails with the faults of its parts. -/
theorem bind {act : Macro α} {next : α → Macro β} (ha : FailsWith P act)
    (hn : ∀ a, FailsWith P (next a)) : FailsWith P (act >>= next) := by
  refine ⟨fun m fault m' hr ↦ ?_⟩
  cases hact : act m with
  | ok a m₁ =>
    rw [bind_of_ok hact] at hr
    exact (hn a).fault m₁ fault m' hr
  | error halt m₁ =>
    rw [bind_of_error hact] at hr
    cases hr
    exact ha.fault m fault m' hact

/-- A value is no fault. -/
theorem pure (a : α) : FailsWith P (pure a : Macro α) := ⟨fun _ _ _ h ↦ nomatch h⟩

/-- Nor is a change. -/
theorem modify (f : Machine → Machine) : FailsWith P (modify f : Macro PUnit) :=
  ⟨fun _ _ _ h ↦ nomatch h⟩

/-- Nor is looking at the machine. -/
theorem get : FailsWith P (get : Macro Machine) := ⟨fun _ _ _ h ↦ nomatch h⟩

/-- Nor is a used-up allowance. -/
theorem exhausted : FailsWith P (throw .exhausted : Macro α) := ⟨fun _ _ _ h ↦ nomatch h⟩

/-- Nor is a draw, with which the allowance may be used up. -/
theorem drawBelow (n : Nat) : FailsWith P (Macro.drawBelow n) := by
  refine ⟨fun m fault m' h ↦ ?_⟩
  unfold Macro.drawBelow at h
  split at h <;> cases h

/-- A failure is the fault it names. -/
theorem fail {fault : Fault} (h : P fault) : FailsWith P (Macro.fail fault : Macro α) := by
  refine ⟨fun m fault' m' hr ↦ ?_⟩
  cases hr
  exact h

/-- A failure that is handled is none. -/
theorem recover {act : Macro Unit} (ha : FailsWith P act) {handle : Fault → Macro Unit}
    (hh : ∀ fault, FailsWith P (handle fault)) : FailsWith P (Macro.recover act handle) := by
  refine ⟨fun m fault m' hr ↦ ?_⟩
  unfold Macro.recover at hr
  split at hr
  · next fault' m₁ hact =>
    split at hr
    · cases hr
      exact ha.fault m fault m' hact
    · exact (hh fault').fault m₁ fault m' hr
  · exact ha.fault m fault m' hr

variable (hP : ∀ fault : Fault, fault.exits = false → P fault)

include hP

/-- Work on the keyboard fails with faults of the device. -/
theorem onKeyboard (act : Act Hid.KeyReport α) : FailsWith P (Macro.onKeyboard act) := by
  refine ⟨fun m fault m' h ↦ ?_⟩
  unfold Macro.onKeyboard at h
  split at h
  · cases h
  · next halt port _ =>
    cases halt with
    | failed e =>
      cases h
      exact hP _ rfl
    | exhausted => cases h

/-- Work on the media keypad fails with faults of the device. -/
theorem onMedia (act : Act Hid.MediaReport α) : FailsWith P (Macro.onMedia act) := by
  refine ⟨fun m fault m' h ↦ ?_⟩
  unfold Macro.onMedia at h
  split at h
  · cases h
  · next halt port _ =>
    cases halt with
    | failed e =>
      cases h
      exact hP _ rfl
    | exhausted => cases h

variable [Evaluator]

/-- The parts of commands fail with faults that do not exit, or with those of expressions. -/
theorem parts (he : ∀ t, FailsWith P (Evaluator.eval t)) :
    Parts (fun act _ ↦ FailsWith P act) fun _ ↦ True := by
  have hnames : ∀ (names : Table Value) t, FailsWith P (Macro.replaceNames t names) := by
    intro names
    induction names with
    | nil => exact fun t ↦ pure t
    | cons entry rest ih =>
      refine fun t ↦ bind ?_ fun shown ↦ ih _
      unfold Macro.display
      split
      · exact pure _
      · exact fail (hP _ rfl)
  exact {
    pure := pure
    bind := bind
    fail := fun h ↦ fail (hP _ h)
    print := fun _ ↦ onMedia hP _
    pause := fun _ ↦ onMedia hP _
    typeText := fun _ ↦ onKeyboard hP _
    typeEnter := bind (onKeyboard hP _) fun _ ↦ onKeyboard hP _
    hold := fun _ _ ↦ onKeyboard hP _
    release := fun _ _ ↦ onKeyboard hP _
    releaseAll := fun _ ↦ onKeyboard hP _
    replaceVariables := fun _ _ t ↦ bind get fun _ ↦ bind (hnames _ t) fun _ ↦
      bind get fun _ ↦ hnames _ _
    replaceDefines := fun _ _ ↦ bind get fun _ ↦ pure _
    drawChar := fun _ ↦ bind (drawBelow _) fun _ ↦ pure _
    evaluate := fun _ ↦ by
      refine bind get fun m ↦ ?_
      split
      · exact fail (hP _ rfl)
      · exact he _
    assign := fun _ _ ↦ modify _
    defaultDelay := fun _ _ ↦ modify _
    define := fun _ ↦ modify _
    function := fun _ _ ↦ modify _ }

/-- So do runs. -/
theorem oneRun (he : ∀ t, FailsWith P (Evaluator.eval t)) :
    OneRun fun act ↦ FailsWith P act := by
  have h := parts hP he
  have hbound : ∀ name otherwise, FailsWith P (Macro.bound name otherwise) := by
    intro name otherwise
    refine bind get fun m ↦ ?_
    split
    · exact pure _
    · refine bind (h.ofExcept (fun _ ↦ rfl) _) fun v ↦ ?_
      split
      · exact pure _
      · exact pure _
  have hpress : ∀ key, FailsWith P (Macro.pressKey key) := by
    rintro (code | code)
    · rw [Macro.pressKey]
      exact onKeyboard hP _
    · rw [Macro.pressKey]
      exact onMedia hP _
  have hrelease : ∀ key, FailsWith P (Macro.releaseKey key) := by
    rintro (code | code)
    · rw [Macro.releaseKey]
      exact onKeyboard hP _
    · rw [Macro.releaseKey]
      exact onMedia hP _
  exact {
    pure := pure
    bind := bind
    get := get
    exhausted := exhausted
    evaluate := fun t ↦ @Parts.evaluate _ _ _ h [] t trivial
    prepare := h.prepare hbound drawBelow (@Parts.replaceDefines _ _ _ h true trivial)
    single := fun hs fuel execute rest ↦
      h.perform hs trivial fuel fuel execute execute fun _ ↦ rfl
    keys := h.pressLine hpress hrelease
    readInt := fun t ↦ h.ofExcept (fun _ ↦ rfl) _
    pause := bind get fun _ ↦ h.pause _
    print := h.print
    recover := recover }

end FailsWith

end Deskhand.Script
