import Deskhand.Proofs.NormalForm
import Deskhand.Proofs.SeedIndependence
import Deskhand.Proofs.SentReports
import Deskhand.Proofs.RespacedScripts

/-!
# What normalised scripts press

Normalising puts a blank after `DELAY` wherever a digit follows, whatever the line is for. In a
command, in a remark or among names of keys the blank makes no difference to the reports that are
sent; in a text that is typed it is typed. The room for events is no part of a script's meaning, so
two scripts are compared by what each can send given enough of it.
-/

namespace Deskhand.Script

open Broker (Gapped HasTightDelay delayWord normalise spaceDelays)

/-! ### What a script can send -/

section Covered

variable {loops : Prop} {width draws room room' : Nat} {t t' : Text}

end Covered

/-! ### Scripts that normalising does no harm to -/

/-- Normalising a script puts blanks into some of its lines, or drops empty lines at its end. -/
def Changes (s : Text) : Prop := HasTightDelay s ∨ (Text.lines s).getLast? = some []

/-- Normalising such a script makes no difference to what it presses. No `DELAY` directly before a
digit stands in a line whose text is typed or read as an expression or a number. If the script
changes at all, it defines no word, has no block of text to type, and no function has `DELAY` in its
name. If it ends in an empty line, it has no loop. -/
structure Harmless (s : Text) : Prop where
  readers : ∀ line ∈ Text.lines s, HasTightDelay line →
    ∀ word ∈ Command.readers, ¬ word <+: Text.trim line
  defines : Changes s → ∀ line ∈ Text.lines s, ¬ "DEFINE".toList <+: Text.trim line
  blocks : Changes s → ∀ line ∈ Text.lines s, Macro.withoutComment line ≠ "STRING".toList ∧
    Macro.withoutComment line ≠ "STRINGLN".toList
  functions : Changes s → ∀ line ∈ Text.lines s, "FUNCTION".toList <+: Text.trim line →
    ¬ delayWord <:+: line
  loops : (Text.lines s).getLast? = some [] → ∀ line ∈ Text.lines s,
    ¬ "WHILE".toList <+: Text.trim line

private theorem isInfix_trim (t : Text) : Text.trim t <:+: t :=
  (Text.prefix_trimRight _).isInfix.trans (List.dropWhile_suffix _).isInfix

private theorem isInfix_withoutComment (line : Text) : Macro.withoutComment line <:+: line :=
  (isInfix_trim _).trans (List.takeWhile_prefix _).isInfix

/-- A line begins with the words that begin its part before a comment. -/
theorem prefix_trim_of_withoutComment {w line : Text}
    (hw : ∀ c ∈ w.getLast?, Text.isBlank c = false) (h : w <+: Macro.withoutComment line) :
    w <+: Text.trim line := by
  have hleft : w <+: Text.trimLeft (line.takeWhile (· != '#')) := h.trans (Text.prefix_trimRight _)
  have hline : w <+: Text.trimLeft line := by
    rw [← List.takeWhile_append_dropWhile (p := (· != '#')) (l := line), Text.trimLeft,
      List.dropWhile_append]
    split
    · next hnil =>
      rw [Text.trimLeft, List.isEmpty_iff.mp hnil, List.prefix_nil] at hleft
      rw [hleft]
      exact List.nil_prefix
    · exact hleft.trans (List.prefix_append _ _)
  obtain ⟨rest, hrest⟩ := hline
  rw [Text.trim, ← hrest, Text.trimRight_append_of_getLast? hw]
  exact List.prefix_append _ _

/-- A line that is one word has no comment. -/
theorem withoutComment_of_trim {w line : Text} (hw : '#' ∉ w) (h : Text.trim line = w) :
    Macro.withoutComment line = w := by
  have hmark : '#' ∉ line := fun hm ↦
    hw (h ▸ Text.mem_dropWhile_ends (Text.isBlank_of_visible (by decide)) hm)
  have hall : line.takeWhile (· != '#') = line := by
    rw [List.takeWhile_eq_self_iff]
    intro c hc
    rw [bne_iff_ne]
    rintro rfl
    exact hmark hc
  rw [Macro.withoutComment, hall, h]

namespace Harmless

variable {s line : Text} (h : Harmless s) (hs : Changes s) (hline : line ∈ Text.lines s)

include h hs hline

/-- A part of a line that is neither of the two words, and begins only with words that the trimmed
line begins with, is the same command with blanks after `DELAY`. -/
theorem sameButGaps {text text' : Text} (hpart : text <:+: line)
    (hstart : ∀ w : Text, w.getLast?.all Text.isVisible = true → w <+: text →
      w <+: Text.trim line)
    (hblock : text ≠ "STRING".toList ∧ text ≠ "STRINGLN".toList) (hg : Gapped text text') :
    SameButGaps ((Text.lines s).getLast? ≠ some []) text text' := by
  refine ⟨.inl hg, fun hw ↦ ?_, hblock, ?_, fun hw hoccurs ↦ ?_, fun hne word hword hw ↦ ?_⟩
  · exact h.defines hs line hline (hstart _ (by decide) hw)
  · by_cases hlast : (Text.lines s).getLast? = some []
    · exact .inr fun hw ↦ h.loops hlast line hline (hstart _ (by decide) hw)
    · exact .inl hlast
  · exact h.functions hs line hline (hstart _ (by decide) hw) (hoccurs.trans hpart)
  · obtain ⟨⟨d, hd, hoccurs⟩, -⟩ := hg.eq_or.resolve_left (Ne.symm hne)
    have hreaders : ∀ word ∈ Command.readers, word.getLast?.all Text.isVisible = true := by
      decide
    exact h.readers line hline ⟨d, hd, hoccurs.trans hpart⟩ word hword
      (hstart word (hreaders word hword) hw)

/-- A line with blanks put in is aligned with it. -/
theorem aligned {line' : Text} (hg : Gapped line line') {width : Nat}
    (hwidth : line'.count ' ' < width) :
    Aligned ((Text.lines s).getLast? ≠ some []) width line line' := by
  obtain ⟨hstring, hstringln⟩ := h.blocks hs line hline
  have hmark : '#' ∉ "STRING".toList ∧ '#' ∉ "STRINGLN".toList := by decide
  refine ⟨⟨.inl hg, ?_, hwidth⟩, ⟨.inl hg.withoutComment, ?_, ?_⟩⟩
  · refine h.sameButGaps hs hline (isInfix_trim line) (fun _ _ hw ↦ hw)
      ⟨fun ht ↦ ?_, fun ht ↦ ?_⟩ hg.trim
    · exact hstring (withoutComment_of_trim hmark.1 ht)
    · exact hstringln (withoutComment_of_trim hmark.2 ht)
  · rw [Macro.withoutComment, Macro.withoutComment, Text.trim_trim, Text.trim_trim]
    refine h.sameButGaps hs hline (isInfix_withoutComment line) (fun w hlast hw ↦ ?_)
      ⟨hstring, hstringln⟩ hg.withoutComment
    refine prefix_trim_of_withoutComment (fun c hc ↦ ?_) hw
    rw [Option.mem_def.mp hc] at hlast
    exact Text.isBlank_of_isVisible hlast
  · exact ((isInfix_withoutComment line').sublist.count_le ' ').trans_lt hwidth

end Harmless

private theorem eq_replicate_of_gapped {lines : List Text} {n : Nat}
    (h : List.Forall₂ Gapped lines (List.replicate n [])) : lines = List.replicate n [] := by
  induction n generalizing lines with
  | zero =>
    cases h
    rfl
  | succ n ih =>
    cases h with
    | cons hline hrest => rw [List.replicate_succ, hline.eq_nil_iff.mp rfl, ih hrest]

section Bare

variable {s : Text} (hbare : ∀ name ∈ Broker.applications, ¬ name ++ Broker.ending <:+: s)

include hbare

/-- The lines of a normal form are those of the script with blanks put in, and without empty lines
at the end. -/
theorem lines_of_normalise : ∃ core n, Text.lines s = core ++ List.replicate n [] ∧
    List.Forall₂ Gapped core (Text.lines (normalise s)) := by
  obtain ⟨n, hn⟩ := Text.exists_lines_trimEnd (spaceDelays s)
  have hlines := (Broker.gapped_spaceDelays s).lines
  rw [hn, ← Broker.normalise_of_bare hbare] at hlines
  refine ⟨_, n, ?_, List.forall₂_take_append _ _ _ hlines⟩
  rw [← eq_replicate_of_gapped (List.forall₂_drop_append _ _ _ hlines), List.take_append_drop]

/-- The lines of a harmless script that changes are aligned with those of its normal form. -/
theorem Harmless.padded (h : Harmless s) (hs : Changes s) :
    Padded ((Text.lines s).getLast? ≠ some [])
      (fun line line' ↦ line.count ' ' < 2 * s.length + 1 ∧
        Aligned ((Text.lines s).getLast? ≠ some []) (2 * s.length + 1) line line')
      (Text.lines s) (Text.lines (normalise s)) := by
  obtain ⟨core, n, hlines, hcore⟩ := lines_of_normalise hbare
  have hmem : ∀ line ∈ core, line ∈ Text.lines s := fun line hline ↦ by
    rw [hlines]
    exact List.mem_append_left _ hline
  refine ⟨core, _, n, 0, hlines, (List.append_nil _).symm, ?_, fun hlast ↦ ⟨?_, rfl⟩⟩
  · refine ((List.forall₂_and_left _ _).mpr ⟨hmem, hcore⟩).imp fun line line' hl ↦ ?_
    obtain ⟨hline, hg⟩ := hl
    have hshort := (infix_of_mem_lines hline).length_le
    have hlonger := hg.length_le
    have hcount := List.count_le_length (a := ' ') (l := line)
    have hcount' := List.count_le_length (a := ' ') (l := line')
    exact ⟨by omega, h.aligned hs hline hg (by omega)⟩
  · cases n with
    | zero => rfl
    | succ n =>
      rw [hlines, List.replicate_succ', ← List.append_assoc, List.getLast?_concat] at hlast
      exact absurd rfl hlast

end Bare

/-! ### Lines that type a text -/

section StringLine

variable {t : Text}

/-- A typable text is typable with blanks after its `DELAY`s. -/
theorem Typable.spaceDelays (ht : Typable t) : Typable (spaceDelays t) := by
  have hg := Broker.gapped_spaceDelays t
  have hspace : Hid.Layout.us.HasKey ' ' ∧ Text.isLineEnd ' ' = false := by decide
  refine ⟨fun hnil ↦ ht.nonempty (hg.eq_nil_iff.mp hnil), fun c hc ↦ ?_, fun c hc ↦ ?_, ?_,
    fun hc ↦ ?_⟩
  · rcases hg.mem_or hc with hc | rfl
    · exact ht.keys c hc
    · exact hspace.1
  · rcases hg.mem_or hc with hc | rfl
    · exact ht.oneLine c hc
    · exact hspace.2
  · rw [hg.getLast?_eq]
    exact ht.last
  · exact (hg.mem_or hc).elim ht.dollar (by decide)

end StringLine

/-! ### Keystrokes -/

end Deskhand.Script
