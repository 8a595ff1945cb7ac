import Deskhand.Proofs.BlockExtent
import Deskhand.Proofs.BoundsIndependence
import Deskhand.Proofs.Publishing

/-!
# Definitions that fail

A line that sets a variable, a defined word, the default delay or a function works out what it sets
before it sets it. So if it fails, nothing was set, with two exceptions. A function is stored as its
lines are read, and so it stays if its lines never end. And what an expression has done before it fails
is done.
-/

namespace Deskhand

private theorem Table.put_eq_self_iff {α : Type} {t : Table α} {key : Text} {value : α} :
    t.put key value = t ↔ t.get? key = some value := by
  constructor
  · intro h
    rw [← h]
    exact t.get?_put_self key value
  · intro h
    obtain ⟨before, after, ht, -, hput⟩ := Table.put_eq_of_get? h value
    rw [hput, ← ht]

namespace Script

open Macro

/-- The words that begin a definition: of a variable, a defined word, the default delay or a
function. -/
def definitionWords : List Text :=
  ["VAR", "$", "DEFINE", "DEFAULT_DELAY", "DEFAULTDELAY", "FUNCTION"]

/-- A line, as it is understood, begins with one of the words of a definition. -/
def IsDefinition (line : Text) : Prop := ∃ word ∈ definitionWords, Text.startsWith line word = true

/-- A command of a definition, well formed or not. -/
def Command.Defines : Command → Prop
  | .assign .. | .badDeclaration _ | .badAssignment _ | .define .. | .defaultDelay _
  | .function _ => True
  | _ => False

/-- An assignment that was read, or not, is a definition. -/
theorem Command.Defines.assigned (r : Option (Text × Text)) (bad : Command) (h : bad.Defines) :
    (match r with
      | some (name, e) => Command.assign ('$' :: name) e
      | none => bad).Defines := by
  split
  · trivial
  · exact h

/-- A line that begins like a definition is the command of one. -/
theorem IsDefinition.defines {line : Text} (h : IsDefinition line) :
    (Command.ofLine line).Defines := by
  obtain ⟨word, hword, hstarts⟩ := h
  obtain ⟨rest, rfl⟩ := (Text.startsWith_iff _ _).mp hstarts
  simp only [definitionWords, List.mem_cons, List.not_mem_nil, or_false] at hword
  rcases hword with rfl | rfl | rfl | rfl | rfl | rfl
  · exact Command.Defines.assigned (Command.declaration? _) (.badDeclaration _) trivial
  · exact Command.Defines.assigned (Command.assignment? _) (.badAssignment _) trivial
  · trivial
  · trivial
  · trivial
  · trivial

/-- A line is the command that stores a function exactly if it begins like one and has a second
word. -/
theorem Command.ofLine_eq_function_iff {line name : Text} :
    Command.ofLine line = .function (some name) ↔
      Text.startsWith line "FUNCTION" = true ∧ (Text.words line)[1]? = some name := by
  constructor
  · intro h
    have hblock : Block.ofLine? line = some .function := by
      rw [← Command.block?_ofLine, h]
      rfl
    have hname := Command.ofLine_of_function hblock
    rw [h] at hname
    refine ⟨?_, (Command.function.inj hname).symm⟩
    by_contra hstarts
    rw [Block.ofLine?, if_neg hstarts] at hblock
    split_ifs at hblock <;> cases hblock
  · rintro ⟨hstarts, hname⟩
    obtain ⟨rest, rfl⟩ := (Text.startsWith_iff _ _).mp hstarts
    rw [← hname]
    rfl

namespace Macro

variable {m m' : Machine} {fault : Fault}

/-- A function that fails to be stored is stored with all the lines there are. -/
theorem storeFunction_failed {name : Text} {rest : List Text}
    (h : storeFunction name rest m = .error (.failed fault) m') :
    m' = { m with functions := m.functions.put name (rest.map Text.trim) } := by
  by_cases hlength : ((rest.map Text.trim).takeWhile (· != "END_FUNCTION".toList)).length <
      (rest.map Text.trim).length
  · rw [storeFunction, if_pos hlength] at h
    cases h
  · have hall : (rest.map Text.trim).takeWhile (· != "END_FUNCTION".toList) = rest.map Text.trim :=
      (List.takeWhile_sublist _).eq_of_length_le (Nat.not_lt.mp hlength)
    rw [storeFunction, if_neg hlength, hall] at h
    cases h
    rfl

/-- A definition that fails leaves what its expression left, if it has one, or the function with all
the lines there are, if it names one, and sets nothing otherwise. -/
theorem perform_definition_failed [Evaluator] {command : Command} (hc : command.Defines)
    {fuel : Nat} {execute : Text → List Text → Macro Nat} {rest : List Text}
    (h : perform fuel execute rest command m = .error (.failed fault) m') :
    (∃ name e, command = .assign name e ∧ evaluate e m = .error (.failed fault) m') ∨
      (∃ name, command = .function (some name) ∧
        m' = { m with functions := m.functions.put name (rest.map Text.trim) }) ∨
      (m' = m ∧ (∀ name e, command ≠ .assign name e) ∧ ∀ name, command ≠ .function (some name)) := by
  cases command with
  | function name =>
    cases name with
    | none =>
      cases h
      exact .inr (.inr ⟨rfl, by simp, by simp⟩)
    | some name => exact .inr (.inl ⟨name, rfl, storeFunction_failed h⟩)
  | assign name e =>
    rw [perform] at h
    cases he : evaluate e m with
    | ok v m₁ =>
      rw [bind_of_ok he] at h
      cases h
    | error halt m₁ =>
      rw [bind_of_error he] at h
      cases h
      exact .inl ⟨name, e, rfl, he⟩
  | badDeclaration line =>
    cases h
    exact .inr (.inr ⟨rfl, by simp, by simp⟩)
  | badAssignment line =>
    cases h
    exact .inr (.inr ⟨rfl, by simp, by simp⟩)
  | define word value => cases h
  | defaultDelay t =>
    rw [perform] at h
    cases hn : Number.readInt t with
    | ok n =>
      rw [hn] at h
      cases h
    | error e =>
      rw [hn] at h
      cases h
      exact .inr (.inr ⟨rfl, by simp, by simp⟩)
  | _ => exact absurd hc id

end Macro

/-- Two machines with the same variables, defined words, functions and default delay. -/
structure Machine.SameSettings (m m' : Machine) : Prop where
  «variables» : m'.variables = m.variables
  defines : m'.defines = m.defines
  functions : m'.functions = m.functions
  defaultDelay : m'.defaultDelay = m.defaultDelay

/-- What a definition leaves as it was when it fails, once its line is prepared. -/
private theorem perform_definition_unchanged [Evaluator] {line : Text} {rest : List Text}
    {m m₁ m' : Machine} {fault : Fault} {fuel : Nat} {execute : Text → List Text → Macro Nat}
    (ho : Outward m m₁) (hc : (Command.ofLine line).Defines)
    (h : perform fuel execute rest (.ofLine line) m₁ = .error (.failed fault) m') :
    (m.SameSettings m' ↔
      (∀ name e, Command.ofLine line = .assign name e →
        m.SameSettings (leftState (Macro.evaluate e m₁))) ∧
      ∀ name, Text.startsWith line "FUNCTION" = true → (Text.words line)[1]? = some name →
        m.functions.get? name = some (rest.map Text.trim)) ∧
    (∀ name e, Command.ofLine line = .assign name e →
      Macro.evaluate e m₁ = .error (.failed fault) m') ∧
    ((∀ name e, Command.ofLine line ≠ .assign name e) →
      m'.variables = m.variables ∧ m'.defines = m.defines ∧ m'.defaultDelay = m.defaultDelay) := by
  rcases perform_definition_failed hc h with
    ⟨name, e, hassign, he⟩ | ⟨name, hname, rfl⟩ | ⟨rfl, hassign, hfunction⟩
  · have hleft : ∀ name' e', Command.ofLine line = .assign name' e' →
        Macro.evaluate e' m₁ = .error (.failed fault) m' := by
      intro name' e' ha
      cases hassign.symm.trans ha
      exact he
    refine ⟨⟨fun hsame ↦ ⟨fun name' e' ha ↦ ?_, fun name' hs hw ↦ ?_⟩, fun hall ↦ ?_⟩, hleft,
      fun hnone ↦ absurd hassign (hnone name e)⟩
    · rw [hleft name' e' ha]
      exact hsame
    · cases hassign.symm.trans (Command.ofLine_eq_function_iff.mpr ⟨hs, hw⟩)
    · have hsettings := hall.1 name e hassign
      rwa [he] at hsettings
  · obtain ⟨keyboard, media, random, trace, rfl⟩ := ho
    obtain ⟨hstarts, hword⟩ := Command.ofLine_eq_function_iff.mp hname
    have hnone : ∀ name' e', Command.ofLine line ≠ .assign name' e' := by
      intro name' e' ha
      cases hname.symm.trans ha
    refine ⟨⟨fun hsame ↦ ⟨fun _ _ ha ↦ absurd ha (hnone _ _), fun name' _ hword' ↦ ?_⟩,
      fun hall ↦ ⟨rfl, rfl, ?_, rfl⟩⟩, fun _ _ ha ↦ absurd ha (hnone _ _), fun _ ↦ ⟨rfl, rfl, rfl⟩⟩
    · cases hword.symm.trans hword'
      exact Table.put_eq_self_iff.mp hsame.functions
    · exact Table.put_eq_self_iff.mpr (hall.2 name hstarts hword)
  · obtain ⟨keyboard, media, random, trace, rfl⟩ := ho
    refine ⟨⟨fun _ ↦ ⟨fun _ _ ha ↦ absurd ha (hassign _ _), fun name hs hw ↦ ?_⟩,
      fun _ ↦ ⟨rfl, rfl, rfl, rfl⟩⟩, fun _ _ ha ↦ absurd ha (hassign _ _), fun _ ↦ ⟨rfl, rfl, rfl⟩⟩
    exact absurd (Command.ofLine_eq_function_iff.mpr ⟨hs, hw⟩) (hfunction name)

/-- Whatever the state, the lines that follow and the meaning of expressions, a definition that fails
(as `parseLine` raises) leaves the variables, the defined words, the functions and the default delay
as they were exactly if the expression that it assigns, if any, has left them so, and the function
that it names, if any, has the lines that follow already: a function is stored although its lines do
not end. What is left after an assignment is what its expression has left, and no other definition
touches anything but the functions. -/
theorem failed_definition_unchanged_iff [Evaluator] (text : Text) (rest : List Text) (m : Machine)
    (hdefinition : ∀ line m₁, prepare text m = .ok line m₁ → IsDefinition line) (fault : Fault)
    (m' : Machine) (h : Macro.line text rest m = .error (.failed fault) m') :
    (m.SameSettings m' ↔
      (∀ line m₁ name e, prepare text m = .ok line m₁ → Command.ofLine line = .assign name e →
        m.SameSettings (leftState (Macro.evaluate e m₁))) ∧
      ∀ line m₁ name, prepare text m = .ok line m₁ → Text.startsWith line "FUNCTION" = true →
        (Text.words line)[1]? = some name → m.functions.get? name = some (rest.map Text.trim)) ∧
    (∀ line m₁ name e, prepare text m = .ok line m₁ → Command.ofLine line = .assign name e →
      Macro.evaluate e m₁ = .error (.failed fault) m') ∧
    ((∀ line m₁ name e, prepare text m = .ok line m₁ → Command.ofLine line ≠ .assign name e) →
      m'.variables = m.variables ∧ m'.defines = m.defines ∧ m'.defaultDelay = m.defaultDelay) := by
  have hkeeps := (keeps_prepare outward_unobserved text).ends m
  rw [line_eq_bind] at h
  obtain ⟨r, hp⟩ : ∃ r, prepare text m = r := ⟨_, rfl⟩
  rw [hp] at hkeeps
  cases r with
  | error halt m₁ =>
    rw [bind_of_error hp] at h
    cases h
    have hnone : ∀ line m₂, prepare text m ≠ .ok line m₂ := by
      intro line m₂ hline
      cases hp.symm.trans hline
    cases hkeeps with
    | failed houtward =>
      obtain ⟨keyboard, media, random, trace, rfl⟩ := houtward
      exact ⟨⟨fun _ ↦ ⟨fun _ _ _ _ hl ↦ absurd hl (hnone _ _), fun _ _ _ hl ↦ absurd hl (hnone _ _)⟩,
        fun _ ↦ ⟨rfl, rfl, rfl, rfl⟩⟩, fun _ _ _ _ hl ↦ absurd hl (hnone _ _), fun _ ↦ ⟨rfl, rfl, rfl⟩⟩
  | ok line m₁ =>
    rw [bind_of_ok hp] at h
    have hdefines := (hdefinition line _ hp).defines
    cases hkeeps with
    | ok houtward =>
      obtain ⟨hsame, hassigned, hothers⟩ := perform_definition_unchanged houtward hdefines h
      refine ⟨hsame.trans ⟨fun hall ↦ ⟨fun line' m₂ name e hline ↦ ?_, fun line' m₂ name hline ↦ ?_⟩,
        fun hall ↦ ⟨fun name e ↦ hall.1 line m₁ name e hp, fun name ↦ hall.2 line m₁ name hp⟩⟩,
        fun line' m₂ name e hline ↦ ?_, fun hnone ↦ hothers fun name e ↦ hnone line m₁ name e hp⟩
      · cases hp.symm.trans hline
        exact hall.1 name e
      · cases hp.symm.trans hline
        exact hall.2 name
      · cases hp.symm.trans hline
        exact hassigned name e

/-- Whether work failed. -/
def isFailure {α : Type} : EStateM.Result (Halt Fault) Machine α → Bool
  | .error (.failed _) _ => true
  | _ => false

private theorem exists_of_isFailure {α : Type} {r : EStateM.Result (Halt Fault) Machine α}
    (h : isFailure r = true) : ∃ fault m, r = .error (.failed fault) m := by
  unfold isFailure at h
  split at h
  · exact ⟨_, _, rfl⟩
  · cases h

/-- A declaration whose value cannot be worked out changes nothing; a function without an end is
stored. -/
theorem failed_definition_unchanged_iff_runs :
    (∃ fault m', Macro.line "VAR $x = 1/0" [] (.fresh 1 5 5) = .error (.failed fault) m' ∧
      (Machine.fresh 1 5 5).SameSettings m') ∧
    ∃ fault m', Macro.line "FUNCTION f" ["ENTER"] (.fresh 1 5 5) = .error (.failed fault) m' ∧
      m'.functions ≠ [] := by
  constructor
  · obtain ⟨m₁, hprepare⟩ := exists_of_resultValue? (show resultValue?
      (prepare "VAR $x = 1/0".toList (.fresh 1 5 5)) = some "VAR $x = 1/0".toList by decide +kernel)
    obtain ⟨fault, m', hrun⟩ := exists_of_isFailure (show isFailure
      (Macro.line "VAR $x = 1/0".toList [] (.fresh 1 5 5)) = true by decide +kernel)
    obtain ⟨hiff, hassigned, -⟩ := failed_definition_unchanged_iff _ [] (.fresh 1 5 5)
      (fun line m₁ hline ↦ by
        cases hprepare.symm.trans hline
        exact ⟨"VAR", by decide, by decide⟩) fault m' hrun
    refine ⟨fault, m', hrun, hiff.mpr ⟨fun line m₂ name e hline hassign ↦ ?_,
      fun line m₂ name hline hstarts ↦ ?_⟩⟩
    · have he := hassigned line m₂ name e hline hassign
      have hends := (keeps_evaluate (R := Eq) keeps_calculator e).ends m₂
      rw [he] at hends ⊢
      cases hends with
      | failed hsame =>
        cases hsame
        obtain ⟨keyboard, media, random, trace, rfl⟩ :=
          (keeps_prepare outward_unobserved _).of_ok hline
        exact ⟨rfl, rfl, rfl, rfl⟩
    · cases hprepare.symm.trans hline
      exact absurd hstarts (by decide)
  · obtain ⟨m₁, hprepare⟩ := exists_of_resultValue? (show resultValue?
      (prepare "FUNCTION f".toList (.fresh 1 5 5)) = some "FUNCTION f".toList by decide +kernel)
    obtain ⟨fault, m', hrun⟩ := exists_of_isFailure (show isFailure
      (Macro.line "FUNCTION f".toList ["ENTER".toList] (.fresh 1 5 5)) = true by decide +kernel)
    obtain ⟨hiff, -, hothers⟩ := failed_definition_unchanged_iff _ ["ENTER".toList]
      (.fresh 1 5 5) (fun line m₁ hline ↦ by
        cases hprepare.symm.trans hline
        exact ⟨"FUNCTION", by decide, by decide⟩) fault m' hrun
    have hcommand : ∀ line m₂ name e, prepare "FUNCTION f".toList (.fresh 1 5 5) = .ok line m₂ →
        Command.ofLine line ≠ .assign name e := by
      intro line m₂ name e hline hassign
      cases hprepare.symm.trans hline
      cases (show Command.ofLine "FUNCTION f".toList = .function (some "f") by
        decide +kernel).symm.trans hassign
    obtain ⟨hvariables, hdefines, hdelay⟩ := hothers hcommand
    refine ⟨fault, m', hrun, fun hnone ↦ ?_⟩
    cases (hiff.mp ⟨hvariables, hdefines, hnone, hdelay⟩).2 _ m₁ "f" hprepare (by decide)
      (by decide +kernel)

/-- A function whose lines do not end is stored by the line that fails. -/
theorem unfinished_function_stored : ∃ m',
    Macro.line "FUNCTION f" ["ENTER"] (.fresh 1 5 5) = .error (.failed .endOfLines) m' ∧
      (Machine.fresh 1 5 5).functions.get? "f" = none ∧
      m'.functions.get? "f" = some ["ENTER".toList] := by
  obtain ⟨m₁, hprepare⟩ := exists_of_resultValue? (show resultValue?
    (prepare "FUNCTION f".toList (.fresh 1 5 5)) = some "FUNCTION f".toList by decide +kernel)
  have hcommand : Command.ofLine "FUNCTION f".toList = .function (some "f") := by decide +kernel
  have hlines : ["ENTER".toList].map Text.trim = ["ENTER".toList] := by decide +kernel
  refine ⟨{ m₁ with functions := m₁.functions.put "f" ["ENTER".toList] }, ?_, rfl,
    Table.get?_put_self _ _ _⟩
  rw [line_eq_bind, bind_of_ok hprepare, hcommand, perform, storeFunction, hlines]
  rfl

end Script

end Deskhand
