import Deskhand.Proofs.Editing
import Deskhand.Proofs.RunInvariant
import Mathlib.Data.List.TakeDrop
import Mathlib.Data.List.TakeWhile

/-!
# What a run does with its defined words and functions

What a command refers to, it takes from its line. Only a definition changes the defined words, and
only a function that is stored changes the functions. So no defined word ever has a blank in it, and no
name of a function any white space.
-/

namespace Deskhand.Script

/-! ### What a command takes from its line -/

/-- The command takes what it refers to from the line. -/
def Command.TakenFrom (line : Text) : Command → Prop
  | .typeBlock _ | .random .. | .releaseAll => ' ' ∉ line
  | .assign .. => '$' ∈ line
  | .define name value =>
    Text.startsWith line "DEFINE" = true ∧ Command.definition line = (name, value)
  | .function (some name) => name ∈ Text.words line
  | .loop guard => guard = Text.trim (line.drop 5)
  | .other text => text = line
  | _ => True

/-- Of two commands, each taken from the line where it is chosen, either is. -/
theorem Command.TakenFrom.ite {line : Text} {p : Prop} [Decidable p] {a b : Command}
    (ha : p → a.TakenFrom line) (hb : ¬ p → b.TakenFrom line) :
    (if p then a else b).TakenFrom line := by
  split
  · next h => exact ha h
  · next h => exact hb h

private theorem Command.dollar_mem_of_assignment? {t name e : Text}
    (h : Command.assignment? t = some (name, e)) : '$' ∈ t := by
  unfold Command.assignment? at h
  split at h
  · exact List.mem_cons_self
  · cases h

/-- A declaration has a dollar sign. -/
theorem Command.dollar_mem_of_declaration? {line name e : Text}
    (h : Command.declaration? line = some (name, e)) : '$' ∈ line := by
  unfold Command.declaration? at h
  split at h
  · next rest hrest =>
    split at h
    · have hmem := Command.dollar_mem_of_assignment? h
      have hsub : Text.trimLeft rest <:+ rest := List.dropWhile_suffix _
      unfold Text.after? at hrest
      split at hrest
      · cases hrest
        exact List.mem_of_mem_drop (hsub.subset hmem)
      · cases hrest
    · cases h
  · cases h

/-- An assignment that was read, or not, is taken from the line. -/
theorem Command.TakenFrom.assigned {line : Text} {r : Option (Text × Text)} {bad : Command}
    (hr : ∀ name e, r = some (name, e) → '$' ∈ line) (hbad : bad.TakenFrom line) :
    (match r with
      | some (name, e) => Command.assign ('$' :: name) e
      | none => bad).TakenFrom line := by
  split
  · exact hr _ _ rfl
  · exact hbad

/-- The command of a line takes what it refers to from the line. -/
theorem Command.takenFrom_ofLine (line : Text) : (Command.ofLine line).TakenFrom line := by
  have hword : ∀ {word : Text}, ' ' ∉ word → (line == word) = true → ' ' ∉ line := by
    intro word hw h
    rwa [eq_of_beq h]
  unfold Command.ofLine
  extract_lets starts
  iterate 6 refine .ite (fun _ ↦ trivial) fun _ ↦ ?_
  refine .ite (hword (by decide)) fun _ ↦ ?_
  refine .ite (fun _ ↦ trivial) fun _ ↦ ?_
  refine .ite (hword (by decide)) fun _ ↦ ?_
  iterate 7 refine .ite (fun _ ↦ trivial) fun _ ↦ ?_
  refine .ite (fun _ ↦ .assigned (fun _ _ h ↦ dollar_mem_of_declaration? h) trivial) fun _ ↦ ?_
  refine .ite (fun _ ↦ .assigned (fun _ _ h ↦ dollar_mem_of_assignment? h) trivial) fun _ ↦ ?_
  refine .ite (fun h ↦ ⟨h, rfl⟩) fun _ ↦ ?_
  refine .ite (fun _ ↦ ?_) fun _ ↦ ?_
  · cases hn : (Text.words line)[1]? with
    | none => trivial
    | some name => exact List.mem_of_getElem? hn
  refine .ite (fun _ ↦ rfl) fun _ ↦ ?_
  iterate 2 refine .ite (fun _ ↦ trivial) fun _ ↦ ?_
  split
  · next word pool count hfound =>
    have hall : ∀ entry ∈ Command.randoms, ' ' ∉ entry.1.toList := by decide +kernel
    have hline := List.find?_some hfound
    rw [← eq_of_beq hline]
    exact hall _ (List.mem_of_find?_eq_some hfound)
  · exact .ite (hword (by decide)) fun _ ↦ rfl

/-! ### Names that are written down -/

/-- The name of a definition has no blank in it. -/
theorem space_not_mem_definition (line : Text) : ' ' ∉ (Command.definition line).1 := by
  have htake : ∀ t : Text, ' ' ∉ t.takeWhile (· != ' ') := fun t h ↦ by
    simpa using List.mem_takeWhile_imp h
  have hlast : ∀ t : Text, t.dropWhile (· != ' ') = [] → ' ' ∉ t.dropLast := by
    intro t ht h
    have hall := List.dropWhile_eq_nil_iff.mp ht ' ' (List.dropLast_subset t h)
    exact absurd hall (by decide)
  unfold Command.definition
  rw [List.span_eq_takeWhile_dropWhile]
  split
  · next heq =>
    exact hlast line (Prod.mk.inj heq).2
  · next rest heq =>
    rw [List.span_eq_takeWhile_dropWhile]
    split
    · next heq => exact hlast rest (Prod.mk.inj heq).2
    · next name value heq =>
      rw [← (Prod.mk.inj heq).1]
      exact htake rest

/-- Words have no white space in them. -/
theorem isBlank_of_mem_words {t word : Text} (h : word ∈ Text.words t) :
    ∀ c ∈ word, Text.isBlank c = false := by
  have hfrom : ∀ current : Text, (∀ c ∈ current, Text.isBlank c = false) →
      word ∈ Text.wordsFrom current t → ∀ c ∈ word, Text.isBlank c = false := by
    clear h
    induction t with
    | nil =>
      intro current hcurrent h
      rw [Text.wordsFrom] at h
      split at h
      · cases h
      · obtain rfl := List.mem_singleton.mp h
        simpa using hcurrent
    | cons d t ih =>
      intro current hcurrent h
      rw [Text.wordsFrom] at h
      split at h
      · split at h
        · exact ih [] (by simp) h
        · rcases List.mem_cons.mp h with rfl | h
          · simpa using hcurrent
          · exact ih [] (by simp) h
      · next hd =>
        refine ih (d :: current) (fun c hc ↦ ?_) h
        rcases List.mem_cons.mp hc with rfl | hc
        · simpa using hd
        · exact hcurrent c hc
  exact hfrom [] (by simp) h

/-- Setting a key adds no other. -/
theorem mem_keys_put {α : Type} {t : Table α} {key name : Text} {value : α}
    (h : name ∈ (t.put key value).keys) : name ∈ t.keys ∨ name = key := by
  induction t with
  | nil => exact .inr (List.mem_singleton.mp h)
  | cons entry rest ih =>
    obtain ⟨k, v⟩ := entry
    rw [Table.put] at h
    split at h
    · exact .inl h
    · rcases List.mem_cons.mp h with rfl | h
      · exact .inl List.mem_cons_self
      · exact (ih h).imp_left (List.mem_cons_of_mem k)

/-- Defined words have no blank in them, names of functions no white space, and there are no
internal names. -/
structure Machine.WordsWhole (m : Machine) : Prop where
  defines : ∀ word ∈ m.defines.keys, ' ' ∉ word
  functions : ∀ name ∈ m.functions.keys, ∀ c ∈ name, Text.isBlank c = false
  internals : m.internals = []

/-- If the first machine has whole words, so has the second. -/
def KeepsWords (m m' : Machine) : Prop := m.WordsWhole → m'.WordsWhole

instance : IsPreorder Machine KeepsWords where
  refl _ h := h
  trans _ _ _ h₁ h₂ h := h₂ (h₁ h)

/-- Every step of a run keeps words whole, if expressions do. -/
theorem keptBySteps_keepsWords [Evaluator] (he : ∀ t, Keeps KeepsWords (Evaluator.eval t)) :
    KeptBySteps KeepsWords where
  outward := by
    rintro m m' ⟨keyboard, media, random, trace, rfl⟩ hm
    exact ⟨hm.defines, hm.functions, hm.internals⟩
  eval := he
  writes line hw fuel execute rest := by
    have hline := Command.takenFrom_ofLine line
    cases hc : Command.ofLine line with
    | define name value =>
      rw [hc] at hline
      refine Keeps.bind (Keeps.modify fun m hm ↦ ⟨fun word hw ↦ ?_, hm.functions, hm.internals⟩)
        fun _ ↦ Keeps.pure 0
      rcases mem_keys_put hw with hw | rfl
      · exact hm.defines word hw
      · have hname := space_not_mem_definition line
        rwa [hline.2] at hname
    | function name =>
      rw [hc] at hline
      cases name with
      | none => exact Macro.keeps_fail _
      | some name =>
        refine Keeps.bind (Keeps.modify fun m hm ↦ ⟨hm.defines, fun other ho ↦ ?_, hm.internals⟩)
          fun _ ↦ ?_
        · rcases mem_keys_put ho with ho | rfl
          · exact hm.functions other ho
          · exact isBlank_of_mem_words hline
        · split
          · exact Keeps.pure _
          · exact Macro.keeps_fail _
    | assign name e =>
      exact Keeps.bind (Macro.keeps_evaluate he e) fun v ↦
        Keeps.bind (Keeps.modify fun m hm ↦ ⟨hm.defines, hm.functions, hm.internals⟩) fun _ ↦
          Keeps.pure 0
    | defaultDelay t =>
      exact Keeps.bind (Macro.keeps_ofExcept _ _) fun n ↦
        Keeps.bind (Keeps.modify fun m hm ↦ ⟨hm.defines, hm.functions, hm.internals⟩) fun _ ↦
          Keeps.pure 0
    | _ =>
      rw [hc] at hw
      exact hw.elim

/-- Whatever scripts and messages a fresh machine is given, defined words have no blank in them,
names of functions no white space, and there are no internal names. -/
theorem wordsWhole_of_runAll {jobs : List Job} {seed : UInt64} {room draws : Nat} {m : Machine}
    (h : Job.runAll jobs (Machine.fresh seed room draws) = .ok () m) : m.WordsWhole := by
  have hkept := ((keptBySteps_keepsWords Macro.keeps_calculator).oneRun.runAll jobs).of_ok h
  have hnone : ∀ word : Text, word ∉ ([] : List Text) := fun _ ↦ List.not_mem_nil
  exact hkept ⟨fun word hw ↦ absurd hw (hnone word), fun name hn ↦ absurd hn (hnone name), rfl⟩

end Deskhand.Script
