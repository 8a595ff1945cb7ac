import Deskhand.Proofs.Dollarless
import Deskhand.Proofs.IntegerText
import Mathlib.Data.List.Basic

/-!
# Definitions among words defined before

A definition enters its word with its value into the table of defined words and changes nothing
else. But the words defined before are replaced in the line of the definition first, its command
word, its word and its value included; so it is the line that is left which decides. After scripts
without dollar signs a definition gives a word a new value exactly if that line still defines the
same word by the same value.
-/

namespace Deskhand.Script

open Macro

variable {m : Machine} {text : Text}

/-! ### What a line does to the defined words -/

/-- A definition of a word by a value. -/
def definitionLine (word value : Text) : Text := "DEFINE".toList ++ ' ' :: (word ++ ' ' :: value)

/-- The second machine has the variables, the functions and the reports of the first, and its
defined words but for `word`, which has the given value. -/
structure Machine.Updates (m : Machine) (word value : Text) (m' : Machine) : Prop where
  defines : ∀ other, m'.defines.get? other =
    if other = word then some value else m.defines.get? other
  values : m'.variables = m.variables
  functions : m'.functions = m.functions
  keyboard : m'.keyboard = m.keyboard
  media : m'.media = m.media

/-- A line with two blanks defines what stands between them by what follows the second. -/
theorem Command.definition_of_blanks {opener word : Text} (ho : ' ' ∉ opener) (hw : ' ' ∉ word)
    (value : Text) :
    Command.definition (opener ++ ' ' :: (word ++ ' ' :: value)) = (word, value) := by
  have hspan : ∀ a b : Text, ' ' ∉ a → (a ++ ' ' :: b).span (· != ' ') = (a, ' ' :: b) := by
    intro a b ha
    have hall : ∀ c ∈ a, (c != ' ') = true := fun c hc ↦ bne_iff_ne.mpr fun h ↦ ha (h ▸ hc)
    rw [List.span_eq_takeWhile_dropWhile, List.takeWhile_append_of_pos hall,
      List.dropWhile_append_of_pos hall]
    simp
  unfold Command.definition
  rw [hspan _ _ ho]
  dsimp only
  rw [hspan _ _ hw]

private theorem Command.ofLine_append_define (rest : Text) :
    Command.ofLine ("DEFINE".toList ++ rest) =
      .define (Command.definition ("DEFINE".toList ++ rest)).1
        (Command.definition ("DEFINE".toList ++ rest)).2 := rfl

/-- A line with two blanks is a definition of a word by a value exactly if the first blank ends a
part that begins with the word for it, and the two stand after the blanks. -/
theorem Command.ofLine_eq_define_iff {line : Text} (hline : 2 ≤ line.count ' ')
    (word value : Text) :
    Command.ofLine line = .define word value ↔ ∃ opener : Text, ' ' ∉ opener ∧ ' ' ∉ word ∧
      Text.startsWith opener "DEFINE" = true ∧ line = opener ++ ' ' :: (word ++ ' ' :: value) := by
  have hmem : ∀ t : Text, 1 ≤ t.count ' ' → ∃ a b, t = a ++ ' ' :: b ∧ ' ' ∉ a := fun t ht ↦
    List.eq_append_cons_of_mem (List.count_pos_iff.mp ht)
  obtain ⟨opener, rest, rfl, ho⟩ := hmem line (by omega)
  obtain ⟨word', value', rfl, hw⟩ := hmem rest (by
    rw [List.count_append, List.count_cons_self, List.count_eq_zero.mpr ho] at hline
    omega)
  have hstarts : Text.startsWith (opener ++ ' ' :: (word' ++ ' ' :: value')) "DEFINE" =
      Text.startsWith opener "DEFINE" :=
    Text.startsWith_append_of_not_mem (c := ' ') (by decide) (by simp) opener
  constructor
  · intro h
    have htaken := Command.takenFrom_ofLine (opener ++ ' ' :: (word' ++ ' ' :: value'))
    rw [h] at htaken
    obtain ⟨hdefine, hsame⟩ := htaken
    rw [Command.definition_of_blanks ho hw] at hsame
    obtain ⟨rfl, rfl⟩ := Prod.mk.inj hsame
    exact ⟨opener, ho, hw, hstarts ▸ hdefine, rfl⟩
  · rintro ⟨opener', ho', hw', hdefine, hsame⟩
    rw [hsame]
    obtain ⟨rest, rfl⟩ := (Text.startsWith_iff opener' "DEFINE").mp hdefine
    have hdefinition := Command.definition_of_blanks ho' hw' value
    rw [List.append_assoc] at hdefinition ⊢
    rw [Command.ofLine_append_define, hdefinition]

/-- Two machines with the same defined words. -/
def SameDefines (m m' : Machine) : Prop := m'.defines = m.defines

instance : IsPreorder Machine SameDefines where
  refl _ := rfl
  trans _ _ _ h₁ h₂ := Eq.trans h₂ h₁

namespace Macro

private theorem sameDefines_of_outward (m m' : Machine) (h : Outward m m') : SameDefines m m' := by
  obtain ⟨keyboard, media, random, trace, rfl⟩ := h
  rfl

/-- A loop whose guard has no dollar sign runs for ever or not at all. -/
theorem sameDefines_loopWhile (execute : Text → List Text → Macro Nat) {guard : Text}
    (hg : '$' ∉ guard) (body : List Text) (fuel : Nat) :
    Ends (fun _ m' ↦ SameDefines m m') (fun _ ↦ True) (loopWhile execute guard body fuel m) := by
  have hevaluate : ∀ m, evaluate guard m = evaluated (some guard) m := fun m ↦ by
    rw [evaluate_eq_evaluated, substitute_of_not_mem hg]
  cases fuel with
  | zero => exact .exhausted
  | succ fuel =>
    cases decided_evaluated (some guard) with
    | failure fault h =>
      have hfails : evaluate guard m = .error (.failed fault) m := by
        rw [hevaluate, h]
        rfl
      rw [loopWhile, bind_of_error hfails]
      exact .failed trivial
    | value v h =>
      have hvalue : ∀ m, evaluate guard m = .ok v m := fun m ↦ by
        rw [hevaluate, h]
        rfl
      by_cases hv : v.equal (.bool true) = true
      · have hever : ∀ fuel m, Ends (fun _ _ ↦ False) (fun _ ↦ True)
            (loopWhile execute guard body fuel m) := by
          intro fuel
          induction fuel with
          | zero => exact fun _ ↦ .exhausted
          | succ fuel ih =>
            intro m
            rw [loopWhile, bind_of_ok (hvalue m), if_pos hv]
            have honce : Ends (fun _ _ ↦ True) (fun _ ↦ True) (bodyOnce execute body m) := by
              cases bodyOnce execute body m with
              | ok _ m' => exact .ok trivial
              | error halt m' =>
                cases halt with
                | failed fault => exact .failed trivial
                | exhausted => exact .exhausted
            exact Ends.seq honce fun _ m' _ ↦ ih m'
        exact (hever (fuel + 1) m).mono (fun _ _ h ↦ h.elim) fun _ h ↦ h
      · rw [loopWhile, bind_of_ok (hvalue m), if_neg hv]
        exact .ok rfl

/-- A line with blanks but without dollar signs that is no definition leaves the defined words
alone, if it comes to an end. -/
theorem sameDefines_perform {line : Text} (hw : m.WordsWhole) (hblank : ' ' ∈ line)
    (hdollar : '$' ∉ line) (hc : ∀ word value, Command.ofLine line ≠ .define word value)
    (fuel : Nat) (execute : Text → List Text → Macro Nat) (rest : List Text) :
    Ends (fun _ m' ↦ SameDefines m m') (fun _ ↦ True)
      (perform fuel execute rest (Command.ofLine line) m) := by
  have htaken := Command.takenFrom_ofLine line
  have hkeeps : ∀ {act : Macro Nat}, Keeps SameDefines act →
      Ends (fun _ m' ↦ SameDefines m m') (fun _ ↦ True) (act m) := fun h ↦
    (h.ends m).mono (fun _ _ h ↦ h) fun _ _ ↦ trivial
  cases hline : Command.ofLine line with
  | define word value => exact absurd hline (hc word value)
  | assign name e =>
    rw [hline] at htaken
    exact absurd htaken hdollar
  | function name =>
    cases name with
    | none => exact .failed trivial
    | some name =>
      refine hkeeps (Keeps.bind (Keeps.modify fun _ ↦ rfl) fun _ ↦ ?_)
      split
      · exact Keeps.pure _
      · exact keeps_fail _
  | defaultDelay t =>
    exact hkeeps (Keeps.bind (keeps_ofExcept _ _) fun n ↦
      Keeps.bind (Keeps.modify fun _ ↦ rfl) fun _ ↦ Keeps.pure 0)
  | loop guard =>
    rw [hline] at htaken
    have hguard : '$' ∉ guard := by
      rw [htaken]
      exact fun h ↦ hdollar (List.mem_of_mem_drop ((Text.trim_sublist _).subset h))
    exact Ends.bind ((sameDefines_loopWhile execute hguard _ _).mono (fun _ _ h ↦ .ok h)
      fun _ h ↦ h)
  | other name =>
    rw [hline] at htaken
    subst htaken
    have hnone : m.functions.get? name = none := by
      cases hf : m.functions.get? name with
      | none => rfl
      | some body =>
        have hmem := List.mem_map_of_mem (f := Prod.fst) (mem_of_get? hf)
        exact absurd (hw.functions name hmem ' ' hblank) (by decide +kernel)
    have hpress : perform fuel execute rest (.other name) m =
        (pressLine name >>= fun _ ↦ pure 0) m := by
      rw [perform, bind_of_ok (run_get m), hnone]
    rw [hpress]
    exact hkeeps (Keeps.bind ((outward_pressLine name).mono sameDefines_of_outward)
      fun _ ↦ Keeps.pure 0)
  | _ =>
    rw [← hline]
    refine hkeeps ((outward_perform ?_ ?_ fuel execute rest).mono sameDefines_of_outward)
    · rw [hline]; trivial
    · rw [hline]; exact id

end Macro

section DefinitionLine

variable {word value : Text}

/-- Trimming leaves a definition by a trimmed value alone. -/
theorem trim_definitionLine (word : Text) (hv : value ≠ []) (htrim : Text.trim value = value) :
    Text.trim (definitionLine word value) = definitionLine word value := by
  have hopener : ∀ c ∈ "DEFINE".toList.head?, Text.isBlank c = false := by
    intro c hc
    obtain rfl : 'D' = c := Option.some.inj hc
    exact Text.isBlank_of_visible (by decide)
  have hlast : (' ' :: (word ++ ' ' :: value)).getLast? = value.getLast? := by
    rw [← List.cons_append, List.getLast?_append_of_ne_nil _ (List.cons_ne_nil _ _)]
    exact List.getLast?_append_of_ne_nil [' '] hv
  refine Text.trim_append (List.cons_ne_nil _ _) (List.cons_ne_nil _ _) hopener ?_
  rw [hlast]
  exact (Text.ends_of_trim_eq_self htrim).2

private theorem dollar_not_mem_definitionLine (hword : '$' ∉ word) (hvalue : '$' ∉ value) :
    '$' ∉ definitionLine word value := by
  intro hmem
  rcases List.mem_append.mp hmem with hmem | hmem
  · exact absurd hmem (by decide)
  · simp_all

private theorem two_le_count_definitionLine : 2 ≤ (definitionLine word value).count ' ' := by
  have hcount : ∀ t : Text, 2 ≤ (t ++ ' ' :: (word ++ ' ' :: value)).count ' ' := by
    intro t
    rw [List.count_append, List.count_cons_self, List.count_append, List.count_cons_self]
    omega
  exact hcount _

/-- A draw has nothing to do with words. -/
theorem Machine.WordsWhole.withRandom (hw : m.WordsWhole) (random : Random) :
    (m.withRandom random).WordsWhole := ⟨hw.defines, hw.functions, hw.internals⟩

/-- Blanks are left in a line, however defined words are replaced in it. -/
theorem Machine.WordsWhole.count_le (hw : m.WordsWhole) (text : Text) :
    (Text.trim text).count ' ' ≤ (m.understood text).count ' ' := by
  refine Machine.understood_induction (P := fun t ↦ (Text.trim text).count ' ' ≤ t.count ' ')
    (Nat.le_refl _) fun entry he t ht ↦ ?_
  exact ht.trans (Text.count_le_count_replaceAll (hw.defines entry.1 (List.mem_map_of_mem he)) t)

private theorem Macro.line_of_dollarless (hm : m.Dollarless) (ht : '$' ∉ text)
    (hd : 0 < m.random.draws) (rest : List Text) :
    line text rest m =
      perform m.random.draws (execute m.random.draws) rest (Command.ofLine (m.understood text))
        (m.withRandom m.random.next) := by
  rw [line_eq_bind, bind_of_ok (prepare_of_dollarless hm ht hd)]

private theorem Macro.perform_define (m : Machine) (random : Random) (fuel : Nat)
    (execute : Text → List Text → Macro Nat) (rest : List Text) (word value : Text) :
    perform fuel execute rest (.define word value) (m.withRandom random) =
      .ok 0 { m with defines := m.defines.put word value, random } := rfl

/-- A line with blanks but without dollar signs that gives a word a new value is a definition of the
word by the value. -/
theorem Macro.ofLine_of_new_value {line : Text} (hw : m.WordsWhole) (hblank : ' ' ∈ line)
    (hdollar : '$' ∉ line) {fuel : Nat} {execute : Text → List Text → Macro Nat} {rest : List Text}
    {random : Random} {taken : Nat} {m' : Machine}
    (h : perform fuel execute rest (Command.ofLine line) (m.withRandom random) = .ok taken m')
    (hold : m.defines.get? word ≠ some value) (hnew : m'.defines.get? word = some value) :
    Command.ofLine line = .define word value := by
  by_cases hc : ∃ w v, Command.ofLine line = .define w v
  · obtain ⟨w, v, hc⟩ := hc
    rw [hc, perform_define] at h
    cases h
    by_cases hsame : word = w
    · subst hsame
      rw [Table.get?_put_self] at hnew
      rw [hc, Option.some.inj hnew]
    · rw [Table.get?_put_of_ne _ _ hsame] at hnew
      exact absurd hnew hold
  · have hends := sameDefines_perform (hw.withRandom random) hblank hdollar
      (fun w v h ↦ hc ⟨w, v, h⟩) fuel execute rest
    rw [h] at hends
    cases hends with
    | ok hsame =>
      rw [show m'.defines = m.defines from hsame] at hnew
      exact absurd hnew hold

/-- After scripts without dollar signs, a definition of a word that does not have the value already
updates the table of defined words exactly if the line that is left, after the words defined before
were replaced in it, defines the same word by the same value (`replaceDefines`). Then nothing else
changes but the random numbers. The line that is left does so exactly if its first part still begins
with the word for definitions and the word and the value still follow; so a line in which no defined
word occurs always updates the table. -/
theorem define_updates_iff {scripts : List Text} (hs : ∀ t ∈ scripts, '$' ∉ t) {seed : UInt64}
    {room draws : Nat}
    (hrun : Job.runAll (scripts.map .script) (Machine.fresh seed room draws) = .ok () m)
    (hd : 0 < m.random.draws) (hblank : ' ' ∉ word) (hword : '$' ∉ word) (hv : value ≠ [])
    (htrim : Text.trim value = value) (hvalue : '$' ∉ value) (rest : List Text) :
    (m.defines.get? word ≠ some value →
      ((∃ taken m', line (definitionLine word value) rest m = .ok taken m' ∧
          m.Updates word value m') ↔
        Command.ofLine (m.understood (definitionLine word value)) = .define word value)) ∧
    (Command.ofLine (m.understood (definitionLine word value)) = .define word value →
      line (definitionLine word value) rest m =
        .ok 0 { m with defines := m.defines.put word value, random := m.random.next }) ∧
    (Command.ofLine (m.understood (definitionLine word value)) = .define word value ↔
      ∃ opener : Text, ' ' ∉ opener ∧ Text.startsWith opener "DEFINE" = true ∧
        m.understood (definitionLine word value) = opener ++ ' ' :: (word ++ ' ' :: value)) ∧
    ((∀ other ∈ m.defines.keys, ¬ other <:+: definitionLine word value) →
      Command.ofLine (m.understood (definitionLine word value)) = .define word value) := by
  have hm := dollarless_of_runAll hs hrun
  have hw := wordsWhole_of_runAll hrun
  have hself := trim_definitionLine word hv htrim
  have hdollar := dollar_not_mem_definitionLine hword hvalue
  have hblanks : 2 ≤ (m.understood (definitionLine word value)).count ' ' := by
    have hkept := hw.count_le (definitionLine word value)
    rw [hself] at hkept
    exact two_le_count_definitionLine.trans hkept
  have hform := Command.ofLine_eq_define_iff hblanks word value
  have hline := line_of_dollarless hm hdollar hd rest
  have hdefine (h : Command.ofLine (m.understood (definitionLine word value)) =
      .define word value) : line (definitionLine word value) rest m =
        .ok 0 { m with defines := m.defines.put word value, random := m.random.next } := by
    rw [hline, h, perform_define]
  refine ⟨fun hnew ↦ ⟨?_, fun h ↦ ?_⟩, hdefine, ?_, fun h ↦ ?_⟩
  · rintro ⟨taken, m', hok, hupdates⟩
    have hget := hupdates.defines word
    rw [if_pos rfl] at hget
    rw [hline] at hok
    exact ofLine_of_new_value hw (List.count_pos_iff.mp (by omega)) (hm.understood hdollar) hok
      hnew hget
  · refine ⟨0, _, hdefine h, fun other ↦ ?_, rfl, rfl, rfl, rfl⟩
    split
    · next heq => rw [heq, Table.get?_put_self]
    · next hne => exact Table.get?_put_of_ne _ _ hne
  · rw [hform]
    exact ⟨fun ⟨opener, ho, _, hstarts, h⟩ ↦ ⟨opener, ho, hstarts, h⟩,
      fun ⟨opener, ho, hstarts, h⟩ ↦ ⟨opener, ho, hblank, hstarts, h⟩⟩
  · rw [hform, understood_of_not_infix (hself.symm ▸ h), hself]
    exact ⟨"DEFINE".toList, by decide, hblank, by decide, rfl⟩

/-- The defined words that a script leaves, if the machine has a number to draw after it. -/
def definesAfter? (script : Text) : Option (Table Text) :=
  match Job.runAll [.script script] (Machine.fresh 1 10 10) with
  | .ok _ m => if 0 < m.random.draws then some m.defines else none
  | .error _ _ => none

/-- A script that leaves defined words leaves a machine that has them. -/
theorem exists_of_definesAfter? {script : Text} {defines : Table Text}
    (h : definesAfter? script = some defines) :
    ∃ m, Job.runAll [.script script] (Machine.fresh 1 10 10) = .ok () m ∧ m.defines = defines ∧
      0 < m.random.draws := by
  unfold definesAfter? at h
  split at h
  · next m hm =>
    split at h
    · next hd => exact ⟨m, hm, Option.some.inj h, hd⟩
    · cases h
  · cases h

/-- After a script that defines the word for definitions by a longer one, a definition is still
entered: the line that is left begins with the longer word. -/
theorem define_updates_iff_opener : ∃ m,
    Job.runAll [.script "DEFINE DEFINE DEFINED".toList] (Machine.fresh 1 10 10) = .ok () m ∧
    0 < m.random.draws ∧ m.defines.get? "a" ≠ some "b c" ∧
    m.understood (definitionLine "a" "b c") = "DEFINED a b c" ∧
    line (definitionLine "a" "b c") [] m =
      .ok 0 { m with defines := m.defines.put "a" "b c", random := m.random.next } ∧
    ∃ taken m', line (definitionLine "a" "b c") [] m = .ok taken m' ∧ m.Updates "a" "b c" m' := by
  have hafter : definesAfter? "DEFINE DEFINE DEFINED" =
      some [("DEFINE".toList, "DEFINED".toList)] := by decide +kernel
  obtain ⟨m, hrun, hdefines, hd⟩ := exists_of_definesAfter? hafter
  have hold : m.defines.get? "a" ≠ some "b c" := by
    rw [hdefines]
    decide
  have hleft : m.understood (definitionLine "a" "b c") = "DEFINED a b c" := by
    rw [Machine.understood, hdefines]
    decide +kernel
  have hscripts : ∀ t ∈ ["DEFINE DEFINE DEFINED".toList], '$' ∉ t := by decide
  obtain ⟨hupdates, hline, hform, -⟩ := define_updates_iff hscripts hrun hd
    (show ' ' ∉ "a".toList by decide) (by decide) (show "b c".toList ≠ [] by decide)
    (by decide +kernel) (by decide) []
  have hdefine := hform.mpr ⟨"DEFINED".toList, by decide, by decide, hleft⟩
  exact ⟨m, hrun, hd, hold, hleft, hline hdefine, (hupdates hold).mpr hdefine⟩

/-- A word that is defined already is replaced in the line that would define it anew: what is entered
is its value. -/
theorem redefinition_defines_value : ∃ m m',
    Job.runAll [.script "DEFINE a b".toList] (Machine.fresh 1 10 10) = .ok () m ∧
    line (definitionLine "a" "c") [] m = .ok 0 m' ∧
    m'.defines = [("a".toList, "b".toList), ("b".toList, "c".toList)] ∧
    ¬ m.Updates "a" "c" m' := by
  have hafter : definesAfter? "DEFINE a b" = some [("a".toList, "b".toList)] := by decide +kernel
  obtain ⟨m, hrun, hdefines, hd⟩ := exists_of_definesAfter? hafter
  have hscripts : ∀ t ∈ ["DEFINE a b".toList], '$' ∉ t := by decide
  have hm := dollarless_of_runAll hscripts hrun
  have hcommand : Command.ofLine (m.understood (definitionLine "a" "c")) = .define "b" "c" := by
    rw [Machine.understood, hdefines]
    decide +kernel
  have hline := line_of_dollarless hm (show '$' ∉ definitionLine "a" "c" by decide) hd []
  rw [hcommand, perform_define] at hline
  refine ⟨m, _, hrun, hline, ?_, fun hupdates ↦ ?_⟩
  · change m.defines.put "b" "c" = _
    rw [hdefines]
    decide
  · have hget : (m.defines.put "b" "c").get? "a" = some "c".toList := hupdates.defines "a"
    rw [hdefines] at hget
    exact absurd hget (by decide)

end DefinitionLine

end Deskhand.Script
