import Deskhand.Proofs.IntegerText
import Deskhand.Proofs.KeyboardRestored
import Deskhand.Proofs.NormalForm
import Deskhand.Proofs.Spacing

/-!
# Commands with blanks after `DELAY`

A line and the same line with blanks after `DELAY` ask for the same, unless the line is one that
reads the text behind its first word. A line of keys presses the same keys: neither a word with
`DELAY` in it nor a word that begins with a digit names one.
-/

namespace Deskhand

/-! ### Numbers that are put in -/

namespace Text

variable {old new w : Text}

section PutIn

variable (hold : old ≠ []) (hne : new ≠ []) (hnew : ∀ c ∈ new, c ∉ w)

include hold hne hnew

end PutIn

/-- A character that may not be dropped is still there when both ends are cut. -/
theorem mem_dropWhile_ends {p : Char → Bool} {c : Char} {t : Text} (hc : p c = false) (h : c ∈ t) :
    c ∈ ((t.dropWhile p).reverse.dropWhile p).reverse := by
  have hdrop : ∀ {u : Text}, c ∈ u → c ∈ u.dropWhile p := by
    intro u hu
    have hsplit := List.takeWhile_append_dropWhile (p := p) (l := u)
    rw [← hsplit] at hu
    rcases List.mem_append.mp hu with hu | hu
    · rw [List.mem_takeWhile_imp hu] at hc
      cases hc
    · exact hu
  exact List.mem_reverse.mpr (hdrop (List.mem_reverse.mpr (hdrop h)))

/-- A word of a text occurs in it. -/
theorem infix_of_mem_words {word t : Text} (h : word ∈ words t) : word <:+: t := by
  have hfrom : ∀ current, word ∈ wordsFrom current t → word <:+: current.reverse ++ t := by
    clear h
    induction t with
    | nil =>
      intro current h
      rw [wordsFrom] at h
      split at h
      · cases h
      · obtain rfl := List.mem_singleton.mp h
        simp
    | cons c t ih =>
      intro current h
      have hrest : word ∈ wordsFrom [] t → word <:+: current.reverse ++ c :: t := fun hm ↦
        (ih [] hm).trans ((List.suffix_cons c t).trans (List.suffix_append _ _)).isInfix
      rw [wordsFrom] at h
      split at h
      · split at h
        · exact hrest h
        · rcases List.mem_cons.mp h with rfl | h
          · exact (List.prefix_append _ _).isInfix
          · exact hrest h
      · simpa using ih (c :: current) h
  exact hfrom [] h

end Text

namespace Broker

/-- Something is put in for a plain word that no `DELAY` can be reached from. -/
theorem Gapped.replaceAll {c : Char} {old new t t' : Text} (hc : c ∉ delayWord)
    (hplain : (c :: old).all isPlain = true)
    (hapart : ∀ n < (c :: old).length, ¬ (c :: old).drop n <+: delayWord ∧
      ¬ delayWord <+: (c :: old).drop n) (h : Gapped t t') :
    Gapped (Text.replaceAll t (c :: old) new) (Text.replaceAll t' (c :: old) new) := by
  rw [List.all_eq_true] at hplain
  have hold : c :: old ≠ [] := List.cons_ne_nil c old
  have hkeep : ∀ {a : Text} (b : Text), c ∉ a →
      Text.replaceAll (a ++ b) (c :: old) new = a ++ Text.replaceAll b (c :: old) new := by
    intro a b ha
    rw [Text.replaceAll_of_ne_nil hold, Text.replaceAll_of_ne_nil hold,
      Text.replaceFrom_append_of_not_mem ha]
  induction hn : t.length using Nat.strong_induction_on generalizing t t' with
  | _ n ih =>
    by_cases hstart : c :: old <+: t
    · obtain ⟨u, rfl⟩ := hstart
      obtain ⟨u', rfl, hu⟩ := h.of_append hapart
      rw [Text.replaceAll_self_append hold, Text.replaceAll_self_append hold]
      refine (refl new).append (ih u.length ?_ hu rfl)
      rw [← hn, List.length_append, List.length_cons]
      omega
    · have hstart' : ¬ c :: old <+: t' := fun hs ↦ hstart ((h.prefix_iff hplain).mp hs)
      cases h with
      | nil => exact .nil
      | @cons d t t' h =>
        rw [Text.replaceAll_cons hold hstart, Text.replaceAll_cons hold hstart']
        exact .cons d (ih t.length (by rw [← hn]; exact Nat.lt_succ_self _) h rfl)
      | @gap d hd t t' h =>
        -- the word does not begin before the digit
        have hdigit : c ≠ d := by
          rintro rfl
          have hfirst := hplain c List.mem_cons_self
          rw [isPlain, hd, Bool.not_true, Bool.and_false] at hfirst
          cases hfirst
        have hblank : c ≠ ' ' := by
          rintro rfl
          exact absurd (hplain ' ' List.mem_cons_self) (by decide)
        have hsplit : delayWord ++ d :: t = (delayWord ++ [d]) ++ t := by simp
        have hsplit' : delayWord ++ ' ' :: d :: t' = (delayWord ++ [' ', d]) ++ t' := by simp
        rw [hsplit, hsplit', hkeep t (by simp [hc, hdigit]), hkeep t' (by simp [hc, hdigit, hblank])]
        have hrest := ih t.length (by rw [← hn]; simp; omega) h rfl
        simpa using Gapped.gap hd hrest

end Broker

namespace Script

open Broker (Gapped delayWord HasTightDelay isPlain)

/-! ### Words of a line of keys -/

namespace Command

/-- The first words of commands that read the text behind them. -/
def readers : List Text := ["STRING", "DEFAULT_DELAY", "DEFAULTDELAY", "VAR", "$", "WHILE"]

/-- The command neither defines a word nor types a block, loops only if loops are allowed, and stores
no function with `DELAY` in its name. -/
def Settled (loops : Prop) : Command → Prop
  | .typeBlock _ | .define .. => False
  | .function (some name) => ¬ delayWord <:+: name
  | .loop _ => loops
  | _ => True

/-- Two commands that do the same: the same command, or commands about keys that do not exist or about
lines that name the same keys, or texts to print. -/
inductive Matches (loops : Prop) : Command → Command → Prop where
  | same {command : Command} (h : command.Settled loops) : Matches loops command command
  | hold {name name' : Text} (h : scriptKey? name = none) (h' : scriptKey? name' = none) :
      Matches loops (.hold name) (.hold name')
  | release {name name' : Text} (h : scriptKey? name = none) (h' : scriptKey? name' = none) :
      Matches loops (.release name) (.release name')
  | print (t t' : Text) : Matches loops (.print t) (.print t')
  | keys {line line' : Text} (h : namedKeys (keyWords line) = namedKeys (keyWords line'))
      (hd : delayWord <:+: line) (hd' : delayWord <:+: line') :
      Matches loops (.other line) (.other line')

variable {loops : Prop}

/-- Of two commands, each settled where it is chosen, either is. -/
theorem Settled.ite {p : Prop} [Decidable p] {a b : Command} (ha : p → a.Settled loops)
    (hb : ¬ p → b.Settled loops) : (if p then a else b).Settled loops := by
  split
  · next h => exact ha h
  · next h => exact hb h

private theorem settled_assigned {r : Option (Text × Text)} {bad : Command}
    (hbad : bad.Settled loops) :
    (match r with
      | some (name, e) => Command.assign ('$' :: name) e
      | none => bad).Settled loops := by
  split
  · trivial
  · exact hbad

/-- Of two pairs of commands that do the same, the one that is chosen does. -/
theorem Matches.ite {p p' : Prop} [Decidable p] [Decidable p'] {a a' b b' : Command}
    (hp : p ↔ p') (ha : p → Matches loops a a') (hb : ¬ p → Matches loops b b') :
    Matches loops (if p then a else b) (if p' then a' else b') := by
  by_cases h : p
  · rw [if_pos h, if_pos (hp.mp h)]
    exact ha h
  · rw [if_neg h, if_neg fun h' ↦ h (hp.mpr h')]
    exact hb h

end Command

open Command (readers Settled Matches)

/-- Two lines that are the same but for blanks after `DELAY`, and do not read what stands behind their
first word if they differ. -/
structure SameButGaps (loops : Prop) (line line' : Text) : Prop where
  gapped : Gapped line line' ∨ Gapped line' line
  define : ¬ "DEFINE".toList <+: line
  block : line ≠ "STRING".toList ∧ line ≠ "STRINGLN".toList
  loop : loops ∨ ¬ "WHILE".toList <+: line
  function : "FUNCTION".toList <+: line → ¬ delayWord <:+: line
  reader : line ≠ line' → ∀ word ∈ readers, ¬ word <+: line

namespace SameButGaps

variable {loops : Prop} {line line' : Text}

/-- They begin with the same plain words. -/
theorem prefix_iff (h : SameButGaps loops line line') {w : Text} (hw : w.all isPlain = true) :
    w <+: line ↔ w <+: line' := by
  rw [List.all_eq_true] at hw
  exact h.gapped.elim (fun hg ↦ (hg.prefix_iff hw).symm) fun hg ↦ hg.prefix_iff hw

/-- If they differ, both have a `DELAY` in them. -/
theorem infix_of_ne (h : SameButGaps loops line line') (hne : line ≠ line') :
    delayWord <:+: line ∧ delayWord <:+: line' := by
  have hpair : ∀ {t t' : Text}, Gapped t t' → t ≠ t' → delayWord <:+: t ∧ delayWord <:+: t' := by
    intro t t' hg hne
    obtain ⟨⟨d, -, hoccurs⟩, hword⟩ := hg.eq_or.resolve_left hne.symm
    exact ⟨(List.prefix_append delayWord [d]).isInfix.trans hoccurs, hword⟩
  rcases h.gapped with hg | hg
  · exact hpair hg hne
  · exact (hpair hg hne.symm).symm

/-- The command of a line is settled. -/
theorem settled (h : SameButGaps loops line line') : (Command.ofLine line).Settled loops := by
  unfold Command.ofLine
  extract_lets starts
  iterate 6 refine .ite (fun _ ↦ trivial) fun _ ↦ ?_
  refine .ite (fun hline ↦ absurd (eq_of_beq hline) h.block.2) fun _ ↦ ?_
  refine .ite (fun _ ↦ trivial) fun _ ↦ ?_
  refine .ite (fun hline ↦ absurd (eq_of_beq hline) h.block.1) fun _ ↦ ?_
  iterate 7 refine .ite (fun _ ↦ trivial) fun _ ↦ ?_
  iterate 2 refine .ite (fun _ ↦ Command.settled_assigned trivial) fun _ ↦ ?_
  refine .ite (fun hstart ↦ absurd (List.isPrefixOf_iff_prefix.mp hstart) h.define) fun _ ↦ ?_
  refine .ite (fun hstart ↦ ?_) fun _ ↦ ?_
  · cases hname : (Text.words line)[1]? with
    | none => trivial
    | some name =>
      intro hoccurs
      have hmem := Text.infix_of_mem_words (List.mem_of_getElem? hname)
      exact h.function (List.isPrefixOf_iff_prefix.mp hstart) (hoccurs.trans hmem)
  refine .ite (fun hstart ↦ ?_) fun _ ↦ ?_
  · exact h.loop.resolve_right (not_not_intro (List.isPrefixOf_iff_prefix.mp hstart))
  iterate 2 refine .ite (fun _ ↦ trivial) fun _ ↦ ?_
  split
  · trivial
  · exact .ite (fun _ ↦ trivial) fun _ ↦ trivial

/-- The second line is to the first as the first to the second. -/
theorem symm (h : SameButGaps loops line line') : SameButGaps loops line' line := by
  have hequal : ∀ {w : Text}, ¬ delayWord <:+: w → line ≠ w → line' ≠ w := by
    intro w hw hne he
    exact hne (h.gapped.elim (fun hg ↦ (hg.eq_iff hw).mp he) fun hg ↦ (hg.eq_iff hw).mpr he)
  have hreaders : ∀ word ∈ readers, word.all isPlain = true := by decide
  refine ⟨h.gapped.symm, ?_, ?_, ?_, ?_, ?_⟩
  · rw [← h.prefix_iff (by decide)]
    exact h.define
  · exact ⟨hequal (by decide) h.block.1, hequal (by decide) h.block.2⟩
  · rw [← h.prefix_iff (by decide)]
    exact h.loop
  · intro hstart hoccurs
    have hnone := h.function ((h.prefix_iff (by decide)).mpr hstart)
    by_cases hne : line = line'
    · exact hnone (hne ▸ hoccurs)
    · exact hnone (h.infix_of_ne hne).1
  · intro hne word hw
    rw [← h.prefix_iff (hreaders word hw)]
    exact h.reader (Ne.symm hne) word hw

end SameButGaps

end Script

end Deskhand
