import Deskhand.Proofs.DefinedWords
import Deskhand.Proofs.RespacedMachines

/-!
# Respaced scripts

A script is covered by one whose lines are the same but for blanks after `DELAY`, whatever empty lines
follow them: commands, functions and loops go over the same lines, and each line does the same.
-/

namespace Deskhand.Script

open Broker (Gapped delayWord)
open Command (Matches)

/-! ### Functions and blocks -/

section Functions

variable {loops : Prop} {width : Nat} {functions functions' : Table (List Text)}
  (h : List.Forall₂ (StoredAlike loops width) functions functions')

include h

end Functions

/-- The lines up to the end of a function, trimmed. -/
def functionBody (rest : List Text) : List Text :=
  (rest.map Text.trim).takeWhile (· != "END_FUNCTION".toList)

/-- The lines after two lines: remarks, functions and loops that end in the first end after as many
lines in the second, and their lines are the same but for blanks after `DELAY`. -/
structure Rests (loops : Prop) (width : Nat) (rest rest' : List Text) : Prop where
  remark : ∀ n,
    Macro.blockLength? (fun line ↦ Text.startsWith (Text.trim line) "END_REM") rest = some n →
      Macro.blockLength? (fun line ↦ Text.startsWith (Text.trim line) "END_REM") rest' = some n
  stored : (functionBody rest).length < rest.length → (functionBody rest').length < rest'.length ∧
    List.Forall₂ (Respaced loops width) (functionBody rest) (functionBody rest')
  loop : loops → (Macro.loopBody 1 rest').2 = (Macro.loopBody 1 rest).2 ∧
    List.Forall₂ (Respaced loops width) (Macro.loopBody 1 rest).1 (Macro.loopBody 1 rest').1

/-- Related lines, with any number of empty lines after them unless loops are allowed. -/
def Padded (loops : Prop) (S : Text → Text → Prop) (lines lines' : List Text) : Prop :=
  ∃ core core' n n', lines = core ++ List.replicate n [] ∧ lines' = core' ++ List.replicate n' [] ∧
    List.Forall₂ S core core' ∧ (loops → n = 0 ∧ n' = 0)

namespace Respaced

variable {loops : Prop} {width : Nat} {line line' : Text}

/-- The empty line is the same. -/
theorem nil (hwidth : 0 < width) : Respaced loops width [] [] := by
  refine ⟨.inl .nil, ⟨.inl .nil, ?_, ?_, .inr ?_, ?_, fun hne ↦ absurd rfl hne⟩, hwidth⟩
  · decide
  · decide
  · decide
  · decide

/-- So are the lines when trimmed. -/
theorem trim (h : Respaced loops width line line') :
    Respaced loops width (Text.trim line) (Text.trim line') := by
  refine ⟨h.gapped.imp Gapped.trim Gapped.trim, ?_, ?_⟩
  · rw [Text.trim_trim, Text.trim_trim]
    exact h.same
  · exact ((Text.trim_sublist line').count_le ' ').trans_lt h.width

/-- The first line is to the second as the second to the first, if it is not too wide. -/
theorem symm (h : Respaced loops width line line') (hwidth : line.count ' ' < width) :
    Respaced loops width line' line := ⟨h.gapped.symm, h.same.symm, hwidth⟩

end Respaced

section Blocks

variable {loops : Prop} {width : Nat} {core core' : List Text}
  (h : List.Forall₂ (Respaced loops width) core core')

include h

end Blocks

namespace Macro

variable {loops : Prop} {width extra : Nat}

end Macro

/-! ### Execution of lines -/

section Steps

open Macro
open Watched (erase note unseen erase_bind)

variable {loops : Prop} {width : Nat}

end Steps

/-! ### Whole scripts -/

/-- Two lines of scripts that are the same but for blanks after `DELAY`, and so are their parts
before comments. -/
structure Aligned (loops : Prop) (width : Nat) (line line' : Text) : Prop where
  whole : Respaced loops width line line'
  text : Respaced loops width (Macro.withoutComment line) (Macro.withoutComment line')

namespace Aligned

variable {loops : Prop} {width : Nat} {line line' : Text} (h : Aligned loops width line line')

include h

/-- The first line is aligned with the second, if it is not too wide. -/
theorem symm (hwidth : line.count ' ' < width) : Aligned loops width line' line := by
  refine ⟨h.whole.symm hwidth, h.text.symm (Nat.lt_of_le_of_lt ?_ hwidth)⟩
  exact ((Text.trim_sublist _).trans (List.takeWhile_sublist _)).count_le ' '

end Aligned

namespace Padded

variable {loops : Prop} {S T : Text → Text → Prop} {lines lines' : List Text}

/-- Lines that are related more closely are related. -/
theorem mono (h : Padded loops S lines lines') (hST : ∀ line line', S line line' → T line line') :
    Padded loops T lines lines' := by
  obtain ⟨core, core', n, n', hl, hl', hcore, hloops⟩ := h
  exact ⟨core, core', n, n', hl, hl', hcore.imp fun _ _ ↦ hST _ _, hloops⟩

/-- The first lines are to the second as the second to the first. -/
theorem symm (h : Padded loops S lines lines') : Padded loops (flip S) lines' lines := by
  obtain ⟨core, core', n, n', hl, hl', hcore, hloops⟩ := h
  exact ⟨core', core, n', n, hl', hl, hcore.flip, fun hallowed ↦ (hloops hallowed).symm⟩

/-- So are the lines after as many lines. -/
theorem drop (h : Padded loops S lines lines') (taken : Nat) :
    Padded loops S (lines.drop taken) (lines'.drop taken) := by
  obtain ⟨core, core', n, n', rfl, rfl, hcore, hloops⟩ := h
  refine ⟨core.drop taken, core'.drop taken, n - (taken - core.length), n' - (taken - core'.length),
    ?_, ?_, List.forall₂_drop taken hcore, fun hallowed ↦ ?_⟩
  · rw [List.drop_append, List.drop_replicate]
  · rw [List.drop_append, List.drop_replicate]
  · obtain ⟨rfl, rfl⟩ := hloops hallowed
    exact ⟨Nat.zero_sub _, Nat.zero_sub _⟩

end Padded

namespace Macro

variable {loops : Prop} {width : Nat}

/-- Empty lines do nothing. -/
theorem runLines_replicate (previous : Text) (n : Nat) :
    runLines previous (List.replicate n []) = pure false := by
  induction n with
  | zero => rw [List.replicate_zero, runLines]
  | succ n ih =>
    rw [List.replicate_succ, runLines]
    exact ih

end Macro

end Deskhand.Script
