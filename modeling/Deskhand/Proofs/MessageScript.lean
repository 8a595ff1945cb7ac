import Deskhand.Proofs.Outcome
import Deskhand.Serial.Receiver

/-!
# The script of a message

Whether a message runs a script, and which, depends on its bytes alone. With a script, handling the
message is running it between the receiver's own lines; without one it is printing some lines.
-/

namespace Deskhand

namespace Script.Macro

/-- Goes on after a failure; neither a request to exit nor a used-up allowance can be caught. -/
def recover (act : Macro Unit) (handle : Fault → Macro Unit) : Macro Unit := fun m ↦
  match act m with
  | .error (.failed fault) m => if fault.exits then .error (.failed fault) m else handle fault m
  | r => r

private theorem print_eq (line : Text) (m : Machine) :
    print line m = match m.trace.room with
      | 0 => .error .exhausted m
      | room + 1 => .ok () { m with
          trace := { events := m.trace.events.push (.print line), room } } := by
  unfold print onMedia Act.emit
  cases m.trace.room <;> rfl

private theorem ends_print (line : Text) (m : Machine) :
    Ends (fun _ _ ↦ True) (fun _ ↦ False) (print line m) := by
  rw [print_eq]
  split
  · exact .exhausted
  · exact .ok trivial

/-- Printing lines does not fail. -/
theorem ends_forM_print (lines : List Text) (m : Machine) :
    Ends (fun _ _ ↦ True) (fun _ ↦ False) (lines.forM print m) :=
  Ends.forM (I := fun _ _ ↦ True) (fun line _ m _ ↦ ends_print line m) lines m trivial

end Script.Macro

namespace Serial

open Script (Evaluator Machine Macro)

/-- The text of a message, and the script it runs; `none` if it runs none. -/
def scriptIn? (bytes : List UInt8) : Option (Text × Text) :=
  match Text.ofUtf8 bytes with
  | .error _ => none
  | .ok t =>
    if carriesScript (Text.trim t) then
      match Json.read (Text.trim t) with
      | .error _ => none
      | .ok message =>
        match message.field? scriptField with
        | some (.text (c :: s)) => some (Text.trim t, Text.replaceAll (c :: s) "\\n" "\n")
        | _ => none
    else none

/-- The receiver's line for a fault. -/
def errorLine (message : Text) : Text := "Error parsing/executing: ".toList ++ message

/-- Running a script between the receiver's own lines. -/
def runBetween [Evaluator] (text script : Text) : Macro Unit :=
  Macro.recover (do
    Macro.print ("Received: ".toList ++ text)
    Macro.print "Executing script..."
    Macro.script script
    Macro.print "Script execution completed.") fun fault ↦ Macro.print (errorLine fault.message)

/-! ### Work of a macro run seen as work on a message -/

/-- Work of a macro run is taken over in sequence. -/
theorem ofMacro_bind {α β : Type} (act : Macro α) (next : α → Macro β) :
    Work.ofMacro (act >>= next) = Work.ofMacro act >>= fun a ↦ Work.ofMacro (next a) := by
  funext m
  cases hr : act m with
  | ok a m' =>
    have hw : Work.ofMacro act m = .ok a m' := by simp [Work.ofMacro, hr]
    rw [bind_of_ok hw]
    unfold Work.ofMacro
    rw [bind_of_ok hr]
  | error halt m' =>
    have hw : Work.ofMacro act m = .error (halt.map .script) m' := by simp [Work.ofMacro, hr]
    rw [bind_of_error hw]
    unfold Work.ofMacro
    rw [bind_of_error hr]

variable [Evaluator]

/-- A message whose work is that of a macro run. -/
theorem message_of_ofMacro {bytes : List UInt8} {act : Macro Unit}
    (h : attempt bytes = Work.ofMacro act) :
    message bytes = Macro.recover act fun fault ↦ Macro.print (errorLine fault.message) := by
  funext m
  unfold message Macro.recover
  rw [h]
  unfold Work.ofMacro
  cases act m with
  | ok a m' => rfl
  | error halt m' =>
    cases halt with
    | exhausted => rfl
    | failed fault =>
      simp only [Halt.map, Fault.exit?]
      cases fault.exits <;> rfl

/-- A message that prints some lines and is done. -/
theorem message_of_print {bytes : List UInt8} (lines : List Text)
    (h : attempt bytes = Work.ofMacro (lines.forM Macro.print)) :
    message bytes = lines.forM Macro.print := by
  rw [message_of_ofMacro h]
  funext m
  unfold Macro.recover
  cases hr : lines.forM Macro.print m with
  | ok a m' => rfl
  | error halt m' =>
    cases halt with
    | exhausted => rfl
    | failed fault => exact absurd hr ((Macro.ends_forM_print lines m).ne_failed fault m')

/-- A message that prints some lines and then fails prints the fault. -/
theorem message_of_fail {bytes : List UInt8} (lines : List Text) {fault : Fault}
    (hexit : fault.exit? = none)
    (h : attempt bytes = Work.ofMacro (lines.forM Macro.print) >>= fun _ ↦ Work.fail fault) :
    message bytes = (lines ++ [errorLine fault.message]).forM Macro.print := by
  funext m
  have happend : (lines ++ [errorLine fault.message]).forM Macro.print m =
      (lines.forM Macro.print >>= fun _ ↦ Macro.print (errorLine fault.message)) m := by
    rw [List.forM_eq_forM, List.forM_append]
    simp
  rw [happend]
  unfold message
  rw [h]
  cases hr : lines.forM Macro.print m with
  | ok a m' =>
    have hw : Work.ofMacro (lines.forM Macro.print) m = .ok a m' := by simp [Work.ofMacro, hr]
    have hfail : Work.fail fault m' = (.error (.failed fault) m' : EStateM.Result _ _ Unit) := rfl
    rw [bind_of_ok hw, bind_of_ok hr, hfail]
    dsimp only
    rw [hexit]
    rfl
  | error halt m' =>
    have hw : Work.ofMacro (lines.forM Macro.print) m = .error (halt.map .script) m' := by
      simp [Work.ofMacro, hr]
    rw [bind_of_error hw, bind_of_error hr]
    cases halt with
    | exhausted => rfl
    | failed fault => exact absurd hr ((Macro.ends_forM_print lines m).ne_failed fault m')

/-! ### Messages with and without a script -/

/-- A message with a script runs it between the receiver's own lines. -/
theorem message_eq_runBetween {bytes : List UInt8} {text script : Text}
    (h : scriptIn? bytes = some (text, script)) : message bytes = runBetween text script := by
  apply message_of_ofMacro
  unfold scriptIn? at h
  split at h
  · cases h
  · next t ht =>
    split at h
    · next hc =>
      split at h
      · cases h
      · next message hj =>
        split at h
        · next c s hf =>
          obtain ⟨rfl, rfl⟩ := Prod.mk.inj (Option.some.inj h)
          unfold attempt runScript
          rw [ht]
          dsimp only
          rw [if_pos hc, hj]
          dsimp only
          rw [hf]
          simp only [ofMacro_bind]
          rfl
        · cases h
    · cases h

/-- A text message that does not look like one with a script is printed, and that is all. -/
theorem message_eq_print {bytes : List UInt8} {t : Text} (ht : Text.ofUtf8 bytes = .ok t)
    (hc : carriesScript (Text.trim t) = false) :
    message bytes = Macro.print ("Received: ".toList ++ Text.trim t) := by
  have h : attempt bytes =
      Work.ofMacro (["Received: ".toList ++ Text.trim t].forM Macro.print) := by
    unfold attempt
    rw [ht]
    dsimp only
    rw [hc]
    simp [Work.print]
  rw [message_of_print _ h]
  simp

/-- Without a text to run, running the script of a message prints lines, and may fail after them. -/
theorem runScript_without {message : Json}
    (h : ∀ c s, message.field? scriptField ≠ some (.text (c :: s))) :
    ∃ lines : List Text, runScript message = Work.ofMacro (lines.forM Macro.print) ∨
      ∃ fault, fault.exit? = none ∧ runScript message =
        Work.ofMacro (lines.forM Macro.print) >>= fun _ ↦ Work.fail fault := by
  have hempty : Work.print "Empty script received." =
      Work.ofMacro ((["Empty script received.".toList] : List Text).forM Macro.print) := by
    simp [Work.print]
  unfold runScript
  cases hf : message.field? scriptField with
  | none => exact ⟨_, .inl hempty⟩
  | some v =>
    rw [Option.getD_some]
    split
    · exact ⟨_, .inl hempty⟩
    · next script hne =>
      cases script with
      | nil => exact absurd rfl hne
      | cons c s => exact absurd hf (h c s)
    · split
      · refine ⟨["Executing script...".toList], .inr ⟨.notScript v.kindName, rfl, ?_⟩⟩
        simp [Work.print]
      · exact ⟨_, .inl hempty⟩

/-- A message without a script prints some lines. -/
theorem message_eq_forM_print {bytes : List UInt8} (h : scriptIn? bytes = none) :
    ∃ lines : List Text, message bytes = lines.forM Macro.print := by
  unfold scriptIn? at h
  split at h
  · next e ht =>
    refine ⟨_, message_of_fail [] (show Fault.exit? (.notText e) = none from rfl) ?_⟩
    unfold attempt
    rw [ht]
    rfl
  · next t ht =>
    split at h
    · next hc =>
      have hattempt : attempt bytes =
          Work.ofMacro (Macro.print ("Received: ".toList ++ Text.trim t)) >>= fun _ ↦
            match Json.read (Text.trim t) with
            | .error e => Work.fail (.notJson e)
            | .ok message => runScript message := by
        unfold attempt
        rw [ht]
        dsimp only
        rw [if_pos hc]
        rfl
      split at h
      · next e hj =>
        refine ⟨_, message_of_fail ["Received: ".toList ++ Text.trim t]
          (show Fault.exit? (.notJson e) = none from rfl) ?_⟩
        rw [hattempt, hj]
        simp
      · next message hj =>
        split at h
        · cases h
        · next hf =>
          rw [hj] at hattempt
          obtain ⟨lines, hs | ⟨fault, hexit, hs⟩⟩ := runScript_without fun c s he ↦ hf c s he
          · refine ⟨_, message_of_print (("Received: ".toList ++ Text.trim t) :: lines) ?_⟩
            rw [hattempt, List.forM_eq_forM, List.forM_cons, ofMacro_bind]
            dsimp only
            rw [hs]
            rfl
          · refine ⟨_, message_of_fail (("Received: ".toList ++ Text.trim t) :: lines) hexit ?_⟩
            rw [hattempt, List.forM_eq_forM, List.forM_cons, ofMacro_bind]
            dsimp only
            rw [hs, bind_assoc]
            rfl
    · next hc =>
      refine ⟨["Received: ".toList ++ Text.trim t], ?_⟩
      rw [message_eq_print ht (by simpa using hc)]
      simp

end Serial

end Deskhand
