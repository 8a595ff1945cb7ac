import Deskhand.Proofs.FunctionCall
import Deskhand.Proofs.TextBlock

/-!
# How far blocks reach

A line can open a remark, a text, a function or a loop, and reads the lines of that block. Each of
the four is ended in its own way: a remark and a function by a line that stands for itself, a text
by a line as it would be typed, and a loop by the line that brings its depth to zero, which is
counted in the lines as they are written. What comes after the line that ends the block plays no
part.
-/

namespace Deskhand.Script

open Macro

/-! ### Blocks and their ends -/

/-- The blocks of lines that a line can open. -/
inductive Block where
  | remark
  | text (enter : Bool)
  | function
  | loop

/-- The block that a line opens, given as it is understood. -/
def Block.ofLine? (line : Text) : Option Block :=
  if Text.startsWith line "REM_BLOCK" then some .remark
  else if line = "STRINGLN".toList then some (.text true)
  else if line = "STRING".toList then some (.text false)
  else if Text.startsWith line "FUNCTION" then some .function
  else if Text.startsWith line "WHILE" then some .loop
  else none

/-- The line of a text begins with the end mark as it is read: trimmed, the variables replaced, and
from the second line on the defined words as well. -/
def Machine.Marks (m : Machine) (enter first : Bool) (line : Text) : Prop :=
  ∃ t, replaceVariables (Text.trim line) m = .ok t m ∧
    Text.startsWith (if first then t else withDefines m.defines t) (endMark enter) = true

/-- A line brings the depth of a loop to zero: it is an end mark, and with it there are as many end
marks as loops that were begun. -/
def Surfaces (depth : Nat) (before : List Text) (line : Text) : Prop :=
  closesLoop line = true ∧ depth + before.countP opensLoop = before.countP closesLoop + 1

/-- A line ends a block, given the lines of the block before it. -/
def Block.Ends (m : Machine) (before : List Text) (line : Text) : Block → Prop
  | .remark => Text.startsWith (Text.trim line) "END_REM" = true
  | .text enter => m.Marks enter before.isEmpty line
  | .function => Text.trim line = "END_FUNCTION".toList
  | .loop => Surfaces 1 before line

/-- A block has the given lines and is ended by the given one, which is the first to end it. -/
structure Block.Spans (m : Machine) (block : Block) (before : List Text) (last : Text) : Prop where
  ends : block.Ends m before last
  first : ∀ earlier line later, before = earlier ++ line :: later → ¬ block.Ends m earlier line

/-- None of the lines ends the block. -/
def Block.Endless (m : Machine) (block : Block) (lines : List Text) : Prop :=
  ∀ before line after, lines = before ++ line :: after → ¬ block.Ends m before line

/-- The events for which there must be room to read the lines of a block up to their end: the lines of
a text are typed, with three reports at most for a character and two for an enter. -/
def Block.room (m : Machine) (lines : List Text) : Block → Nat
  | .text _ => 3 * (m.blockTexts (lines.map Text.trim)).flatten.length + 2 * lines.length
  | _ => 0

/-- The lines that are left of those after a line: all of them if the line opens no block, those
behind the first line that ends the block, and none if a loop is not ended. -/
inductive Leaves (m : Machine) (rest : List Text) : Option Block → List Text → Prop where
  | all : Leaves m rest none rest
  | behind {block : Block} {before : List Text} {last : Text} {left : List Text}
      (hrest : rest = before ++ last :: left) (hspans : block.Spans m before last) :
      Leaves m rest (some block) left
  | nothing (h : Block.loop.Endless m rest) : Leaves m rest (some .loop) []

/-- The block that a command reads. -/
def Command.block? : Command → Option Block
  | .skipBlock => some .remark
  | .typeBlock enter => some (.text enter)
  | .function _ => some .function
  | .loop _ => some .loop
  | _ => none

private theorem Command.block?_ite {p : Prop} [Decidable p] {a b : Command} {block : Option Block}
    (ha : p → a.block? = block) (hb : ¬ p → b.block? = block) :
    (if p then a else b).block? = block := by
  split
  · next h => exact ha h
  · next h => exact hb h

/-- The command of a line reads the block that the line opens. -/
theorem Command.block?_ofLine (line : Text) :
    (Command.ofLine line).block? = Block.ofLine? line := by
  by_cases hremark : Text.startsWith line "REM_BLOCK" = true
  · obtain ⟨t, rfl⟩ := (Text.startsWith_iff _ _).mp hremark
    rfl
  by_cases hlines : line = "STRINGLN".toList
  · rw [hlines]
    rfl
  by_cases htext : line = "STRING".toList
  · rw [htext]
    rfl
  by_cases hfunction : Text.startsWith line "FUNCTION" = true
  · obtain ⟨t, rfl⟩ := (Text.startsWith_iff _ _).mp hfunction
    rfl
  by_cases hloop : Text.startsWith line "WHILE" = true
  · obtain ⟨t, rfl⟩ := (Text.startsWith_iff _ _).mp hloop
    rfl
  rw [Block.ofLine?, if_neg hremark, if_neg hlines, if_neg htext, if_neg hfunction, if_neg hloop]
  unfold ofLine
  extract_lets starts
  refine Command.block?_ite (fun _ ↦ rfl) fun _ ↦ ?_
  refine Command.block?_ite (fun h ↦ absurd h hremark) fun _ ↦ ?_
  iterate 4 refine Command.block?_ite (fun _ ↦ rfl) fun _ ↦ ?_
  refine Command.block?_ite (fun h ↦ absurd (eq_of_beq h) hlines) fun _ ↦ ?_
  refine Command.block?_ite (fun _ ↦ rfl) fun _ ↦ ?_
  refine Command.block?_ite (fun h ↦ absurd (eq_of_beq h) htext) fun _ ↦ ?_
  iterate 7 refine Command.block?_ite (fun _ ↦ rfl) fun _ ↦ ?_
  refine Command.block?_ite (fun _ ↦ by split <;> rfl) fun _ ↦ ?_
  refine Command.block?_ite (fun _ ↦ by split <;> rfl) fun _ ↦ ?_
  refine Command.block?_ite (fun _ ↦ rfl) fun _ ↦ ?_
  refine Command.block?_ite (fun h ↦ absurd h hfunction) fun _ ↦ ?_
  refine Command.block?_ite (fun h ↦ absurd h hloop) fun _ ↦ ?_
  iterate 2 refine Command.block?_ite (fun _ ↦ rfl) fun _ ↦ ?_
  split
  · rfl
  · exact Command.block?_ite (fun _ ↦ rfl) fun _ ↦ rfl

/-! ### Reading a block -/

/-- Lines either have a first one with a property, or none. -/
theorem exists_split_or_forall (p : Text → Bool) (lines : List Text) :
    (∃ before last left, lines = before ++ last :: left ∧ p last = true ∧
      ∀ line ∈ before, p line = false) ∨ ∀ line ∈ lines, p line = false := by
  cases hfind : lines.find? p with
  | none =>
    right
    intro line hmem
    simpa using List.find?_eq_none.mp hfind line hmem
  | some last =>
    left
    obtain ⟨hlast, before, left, hlines, hbefore⟩ := List.find?_eq_some_iff_append.mp hfind
    exact ⟨before, last, left, hlines, hlast, fun line hmem ↦ by simpa using hbefore line hmem⟩

/-- A block that is ended by the property of a line alone spans the lines before the first with the
property. -/
theorem Block.spans_of_forall {block : Block} {p : Text → Bool} {m : Machine}
    (hends : ∀ before line, block.Ends m before line ↔ p line = true) {before : List Text}
    {last : Text} (hlast : p last = true) (hbefore : ∀ line ∈ before, p line = false) :
    block.Spans m before last := by
  refine ⟨(hends before last).mpr hlast, fun earlier line later he h ↦ ?_⟩
  have hmem : line ∈ before := he ▸ List.mem_append_right _ List.mem_cons_self
  rw [hends, hbefore line hmem] at h
  exact Bool.false_ne_true h

namespace Macro

/-- Enter, or nothing, takes two reports at most. -/
private theorem transmits_enter (enter : Bool) (m : Machine) : ∃ reports, reports.length ≤ 2 ∧
    Transmits (if enter then typeEnter else pure ()) m (some ()) reports 0 0 := by
  cases enter with
  | false => exact ⟨[], Nat.zero_le _, .pure () m 0 0⟩
  | true =>
    have hpress := transmits_press 0x28 m
    obtain ⟨pressed, hpressed⟩ : ∃ r, (m.keyboard.press ((0x28 : UInt8).toNat : Int)).1 = r := ⟨_, rfl⟩
    rw [hpressed] at hpress
    refine ⟨[pressed] ++ [pressed.release 0x28], Nat.le_refl 2, hpress.bind fun m' hsent ↦ ?_⟩
    have hkeyboard : m'.keyboard = pressed := hsent.keyboard
    rw [← hkeyboard]
    exact transmits_release 0x28 m'

variable {m m' : Machine} {rest : List Text} {taken : Nat}

section Split

variable {before : List Text} {last : Text}

private theorem blockLength?_split {p : Text → Bool} (hlast : p last = true)
    (hbefore : ∀ line ∈ before, p line = false) (left : List Text) :
    blockLength? p (before ++ last :: left) = some (before.length + 1) := by
  have hfirst : before.findIdx? p = none := List.findIdx?_eq_none_iff.mpr hbefore
  simp [blockLength?, List.findIdx?_append, hfirst, List.findIdx?_cons, hlast]

/-- The trimmed lines before a mark are those before the first line that is the mark when
trimmed. -/
theorem takeWhile_split {mark : Text} (hlast : (Text.trim last == mark) = true)
    (hbefore : ∀ line ∈ before, (Text.trim line == mark) = false) (left : List Text) :
    ((before ++ last :: left).map Text.trim).takeWhile (· != mark) = before.map Text.trim := by
  have hall : ∀ line ∈ before.map Text.trim, (line != mark) = true := by
    intro line hmem
    obtain ⟨l, hl, rfl⟩ := List.mem_map.mp hmem
    simp only [bne, hbefore l hl, Bool.not_false]
  rw [List.map_append, List.takeWhile_append_of_pos hall, List.map_cons,
    List.takeWhile_cons_of_neg (by simp only [bne, hlast, Bool.not_true, Bool.false_eq_true,
      not_false_eq_true]), List.append_nil]

end Split

/-- A remark takes the lines up to the first that ends it. -/
theorem spans_of_skipBlock [Evaluator] {fuel : Nat} {execute : Text → List Text → Macro Nat}
    (h : perform fuel execute rest .skipBlock m = .ok taken m') :
    ∃ before last left, rest = before ++ last :: left ∧ taken = before.length + 1 ∧
      Block.remark.Spans m before last ∧
      ∀ more, perform fuel execute (before ++ last :: more) .skipBlock m = .ok taken m' := by
  rcases exists_split_or_forall (fun line ↦ Text.startsWith (Text.trim line) "END_REM") rest with
    ⟨before, last, left, rfl, hlast, hbefore⟩ | hnone
  · have hperform : ∀ more, perform fuel execute (before ++ last :: more) .skipBlock m =
        .ok (before.length + 1) m := by
      intro more
      rw [perform, blockLength?_split (p := fun line ↦ Text.startsWith (Text.trim line) "END_REM")
        hlast hbefore]
      rfl
    rw [hperform] at h
    cases h
    exact ⟨before, last, left, rfl, rfl, Block.spans_of_forall (fun _ _ ↦ Iff.rfl) hlast hbefore,
      hperform⟩
  · rw [perform, blockLength?, List.findIdx?_eq_none_iff.mpr hnone] at h
    cases h

/-- A function takes the lines up to the first that ends it, and stores those before it. -/
theorem spans_of_storeFunction {name : Text} (h : storeFunction name rest m = .ok taken m') :
    ∃ before last left, rest = before ++ last :: left ∧ taken = before.length + 1 ∧
      Block.function.Spans m before last ∧
      (∀ more, storeFunction name (before ++ last :: more) m = .ok taken m') ∧
      m' = { m with functions := m.functions.put name (before.map Text.trim) } := by
  have hstore : ∀ rest, storeFunction name rest m =
      (if ((rest.map Text.trim).takeWhile (· != "END_FUNCTION".toList)).length <
          (rest.map Text.trim).length
        then pure (((rest.map Text.trim).takeWhile (· != "END_FUNCTION".toList)).length + 1)
        else fail .endOfLines : Macro Nat)
      { m with functions :=
        m.functions.put name ((rest.map Text.trim).takeWhile (· != "END_FUNCTION".toList)) } :=
    fun _ ↦ rfl
  rcases exists_split_or_forall (fun line ↦ Text.trim line == "END_FUNCTION".toList) rest with
    ⟨before, last, left, rfl, hlast, hbefore⟩ | hnone
  · have hstored : ∀ more, storeFunction name (before ++ last :: more) m =
        .ok (before.length + 1)
          { m with functions := m.functions.put name (before.map Text.trim) } := by
      intro more
      rw [hstore, takeWhile_split hlast hbefore, if_pos (by simp), List.length_map]
      rfl
    rw [hstored] at h
    cases h
    refine ⟨before, last, left, rfl, rfl, Block.spans_of_forall ?_ hlast hbefore, hstored, rfl⟩
    exact fun _ line ↦ beq_iff_eq.symm
  · have hbody : (rest.map Text.trim).takeWhile (· != "END_FUNCTION".toList) =
        rest.map Text.trim := by
      rw [List.takeWhile_eq_self_iff]
      intro line hmem
      obtain ⟨l, hl, rfl⟩ := List.mem_map.mp hmem
      rw [bne, hnone l hl]
      rfl
    rw [hstore, hbody, if_neg (Nat.lt_irrefl _)] at h
    cases h

private theorem eq_of_replaceVariables {line t : Text} (h : replaceVariables line m = .ok t m') :
    m' = m := by
  by_cases hs : m.ShowsAll
  · rw [replaceVariables_of_showsAll hs] at h
    cases h
    rfl
  · obtain ⟨fault, hfault⟩ := replaceVariables_of_not_showsAll hs line
    rw [hfault] at h
    cases h

/-- A line ends a text if all variables can be shown and it begins with the end mark as it is read. -/
theorem marks_iff {enter first : Bool} {line : Text} : m.Marks enter first line ↔
    m.ShowsAll ∧ Text.startsWith (if first then m.filled (Text.trim line)
      else m.defined (m.filled (Text.trim line))) (endMark enter) = true := by
  constructor
  · rintro ⟨t, ht, hmark⟩
    by_cases hs : m.ShowsAll
    · rw [replaceVariables_of_showsAll hs] at ht
      cases ht
      exact ⟨hs, hmark⟩
    · obtain ⟨fault, hfault⟩ := replaceVariables_of_not_showsAll hs (Text.trim line)
      rw [hfault] at ht
      cases ht
  · rintro ⟨hs, hmark⟩
    exact ⟨_, replaceVariables_of_showsAll hs _, hmark⟩

private theorem marks_of_outward (h : Outward m m') (enter first : Bool) (line : Text) :
    m'.Marks enter first line ↔ m.Marks enter first line := by
  obtain ⟨keyboard, media, random, trace, rfl⟩ := h
  rw [marks_iff, marks_iff]
  rfl

/-- A text takes the lines up to the first that ends it. -/
theorem marks_of_typeBlock {enter first : Bool}
    (h : typeBlock enter (endMark enter) first rest m = .ok taken m') :
    ∃ before last left, rest = before ++ last :: left ∧ taken = before.length + 1 ∧
      m.Marks enter (first && before.isEmpty) last ∧
      (∀ earlier line later, before = earlier ++ line :: later →
        ¬ m.Marks enter (first && earlier.isEmpty) line) ∧
      ∀ more, typeBlock enter (endMark enter) first (before ++ last :: more) m = .ok taken m' := by
  induction rest generalizing m first taken with
  | nil => cases h
  | cons line rest ih =>
    obtain ⟨t, m₁, ht⟩ : ∃ t m₁, replaceVariables (Text.trim line) m = .ok t m₁ := by
      rw [typeBlock_cons] at h
      obtain ⟨t, m₁, ht, -⟩ := exists_of_bind_ok h
      exact ⟨t, m₁, ht⟩
    obtain rfl := eq_of_replaceVariables ht
    obtain ⟨u, hu⟩ : ∃ u, u = if first then t else withDefines m₁.defines t := ⟨_, rfl⟩
    have hmarks : m₁.Marks enter first line ↔ Text.startsWith u (endMark enter) = true := by
      rw [hu]
      constructor
      · rintro ⟨t', ht', hmark⟩
        rw [ht] at ht'
        cases ht'
        exact hmark
      · exact fun hmark ↦ ⟨t, ht, hmark⟩
    rw [typeBlock_of_replaced ht hu] at h
    by_cases hmark : Text.startsWith u (endMark enter) = true
    · rw [if_pos hmark] at h
      cases h
      refine ⟨[], line, rest, rfl, rfl, ?_, fun earlier _ _ he ↦ by simp at he, fun more ↦ ?_⟩
      · rw [List.isEmpty_nil, Bool.and_true]
        exact hmarks.mpr hmark
      · rw [List.nil_append, typeBlock_of_replaced ht hu, if_pos hmark]
        rfl
    · rw [if_neg hmark] at h
      obtain ⟨_, m₂, htype, hnext⟩ := exists_of_bind_ok h
      obtain ⟨_, m₃, henter, hnext⟩ := exists_of_bind_ok hnext
      obtain ⟨_, m₄, hrest, hnext⟩ := exists_of_bind_ok hnext
      cases hnext
      have hout : Outward m₁ m₃ := by
        have hkeeps : Keeps Outward (if enter then typeEnter else pure () : Macro Unit) := by
          split
          · exact outward_typeEnter
          · exact Keeps.pure _
        exact trans_of Outward ((outward_onKeyboard _).of_ok htype) (hkeeps.of_ok henter)
      obtain ⟨before, last, left, rfl, rfl, hlast, hbefore, hmore⟩ := ih hrest
      simp only [marks_of_outward hout, Bool.false_and] at hlast hbefore
      refine ⟨line :: before, last, left, rfl, rfl, ?_, fun earlier l later he ↦ ?_,
        fun more ↦ ?_⟩
      · rw [List.isEmpty_cons, Bool.and_false]
        exact hlast
      · cases earlier with
        | nil =>
          cases he
          rw [List.isEmpty_nil, Bool.and_true, hmarks]
          exact hmark
        | cons first' earlier =>
          cases he
          rw [List.isEmpty_cons, Bool.and_false]
          exact hbefore earlier l later rfl
      · rw [List.cons_append, typeBlock_of_replaced ht hu, if_neg hmark, bind_of_ok htype,
          bind_of_ok henter, bind_of_ok (hmore more)]
        rfl

/-- With enough room, a text that no line ends fails. -/
theorem typeBlock_failed {enter first : Bool} {texts : List Text}
    (htexts : texts = if first then m.blockTexts (rest.map Text.trim) else
      rest.map fun line ↦ m.defined (m.filled (Text.trim line)))
    (hnone : ∀ before line after, rest = before ++ line :: after →
      ¬ m.Marks enter (first && before.isEmpty) line)
    (hroom : 3 * texts.flatten.length + 2 * rest.length ≤ m.trace.room) :
    ∃ fault m', typeBlock enter (endMark enter) first rest m = .error (.failed fault) m' := by
  induction rest generalizing m first texts with
  | nil => exact ⟨.endOfLines, m, rfl⟩
  | cons line rest ih =>
    by_cases hs : m.ShowsAll
    · obtain ⟨t, ht⟩ : ∃ t, t = if first then m.filled (Text.trim line) else
          m.defined (m.filled (Text.trim line)) := ⟨_, rfl⟩
      obtain rfl : texts = t :: rest.map fun line ↦ m.defined (m.filled (Text.trim line)) := by
        rw [htexts, ht]
        cases first <;> simp [Machine.blockTexts]
      have hmark : ¬ Text.startsWith t (endMark enter) = true := by
        have hfirst := hnone [] line rest rfl
        rw [List.isEmpty_nil, Bool.and_true, marks_iff, ← ht] at hfirst
        exact fun h ↦ hfirst ⟨hs, h⟩
      rw [typeBlock_of_replaced (replaceVariables_of_showsAll hs _) ht, if_neg hmark]
      rw [List.flatten_cons, List.length_append, List.length_cons] at hroom
      have hlength : (Hid.Layout.textReports m.keyboard (Hid.Layout.keyed t)).length ≤
          3 * t.length := (Hid.Layout.length_textReports_le _ _).trans
        (Nat.mul_le_mul_left 3 (List.takeWhile_sublist _).length_le)
      rcases (transmits_typeText t m).cases (by omega) (Nat.zero_le _) with
        ⟨fault, m', hfails⟩ | ⟨_, m₁, htype, hsent, hleft⟩
      · exact ⟨fault, m', bind_of_error hfails⟩
      obtain ⟨reports, hfew, henter⟩ := transmits_enter enter m₁
      rcases henter.cases (by omega) (Nat.zero_le _) with
        ⟨fault, m', hfails⟩ | ⟨_, m₂, hentered, hsent', hleft'⟩
      · exact ⟨fault, m', by rw [bind_of_ok htype, bind_of_error hfails]⟩
      -- what is sent does not change how the lines are read
      have hsent₂ := hsent.trans hsent'
      have hmarks : ∀ l, m₂.Marks enter false l ↔ m.Marks enter false l := by
        intro l
        obtain ⟨random, events, room, rfl, -⟩ := hsent₂
        rw [marks_iff, marks_iff]
        rfl
      obtain ⟨fault, m', hfails⟩ := @ih m₂ false
        (rest.map fun line ↦ m.defined (m.filled (Text.trim line)))
        (by simp only [hsent₂.defined_eq, if_neg Bool.false_ne_true])
        (fun before l after hrest ↦ by
          rw [Bool.false_and, hmarks]
          have hlater := hnone (line :: before) l after (by rw [hrest]; rfl)
          rwa [List.isEmpty_cons, Bool.and_false] at hlater)
        (by omega)
      exact ⟨fault, m', by rw [bind_of_ok htype, bind_of_ok hentered, bind_of_error hfails]⟩
    · obtain ⟨fault, hfails⟩ := replaceVariables_of_not_showsAll hs (Text.trim line)
      exact ⟨fault, m, by rw [typeBlock_cons, bind_of_error hfails]⟩

private theorem closesLoop_of_opensLoop {line : Text} (h : opensLoop line = true) :
    closesLoop line = false := by
  obtain ⟨t, ht⟩ := (Text.startsWith_iff _ _).mp h
  unfold closesLoop
  rw [ht]
  rfl

/-- A line that does not end the loop belongs to its body, and the depth goes on from there. -/
theorem loopBody_of_not_surfaces {depth : Nat} (hd : 0 < depth) {line : Text}
    (h : ¬ Surfaces depth [] line) : ∃ depth', 0 < depth' ∧
      (∀ rest, loopBody depth (line :: rest) =
        (line :: (loopBody depth' rest).1, (loopBody depth' rest).2 + 1)) ∧
      ∀ before l, Surfaces depth (line :: before) l ↔ Surfaces depth' before l := by
  simp only [loopBody_cons]
  cases ho : opensLoop line with
  | true =>
    refine ⟨depth + 1, by omega, fun _ ↦ rfl, fun before l ↦ ?_⟩
    rw [Surfaces, Surfaces, List.countP_cons_of_pos ho,
      List.countP_cons_of_neg (by simp [closesLoop_of_opensLoop ho])]
    exact and_congr_right fun _ ↦ by omega
  | false =>
    cases hc : closesLoop line with
    | true =>
      have hdeep : depth ≠ 1 := fun hone ↦ h ⟨hc, by rw [hone]; rfl⟩
      refine ⟨depth - 1, by omega, fun _ ↦ by simp [hdeep], fun before l ↦ ?_⟩
      rw [Surfaces, Surfaces, List.countP_cons_of_neg (by simp [ho]), List.countP_cons_of_pos hc]
      exact and_congr_right fun _ ↦ by omega
    | false =>
      refine ⟨depth, hd, fun _ ↦ rfl, fun before l ↦ ?_⟩
      rw [Surfaces, Surfaces, List.countP_cons_of_neg (by simp [ho]),
        List.countP_cons_of_neg (by simp [hc])]

/-- A loop takes the lines up to the first that brings its depth to zero, or all of them. -/
theorem loopBody_spans {depth : Nat} (hd : 0 < depth) (rest : List Text) :
    (∃ before last left, rest = before ++ last :: left ∧
      Surfaces depth before last ∧
      (∀ earlier line later, before = earlier ++ line :: later → ¬ Surfaces depth earlier line) ∧
      ∀ more, loopBody depth (before ++ last :: more) = (before, before.length + 1)) ∨
    loopBody depth rest = (rest, rest.length) ∧ ∀ before line after,
      rest = before ++ line :: after → ¬ Surfaces depth before line := by
  induction rest generalizing depth with
  | nil => exact .inr ⟨rfl, fun before line after he ↦ by simp at he⟩
  | cons line rest ih =>
    by_cases hs : Surfaces depth [] line
    · have hone : depth = 1 := hs.2
      have hopens : opensLoop line = false := by
        by_contra ho
        rw [Bool.not_eq_false] at ho
        exact Bool.false_ne_true ((closesLoop_of_opensLoop ho).symm.trans hs.1)
      refine .inl ⟨[], line, rest, rfl, hs, fun earlier _ _ he ↦ by simp at he, fun more ↦ ?_⟩
      rw [List.nil_append, loopBody_cons, hopens, hs.1, hone]
      rfl
    · obtain ⟨depth', hd', hbody, hdepth⟩ := loopBody_of_not_surfaces hd hs
      -- a line further on ends the loop exactly if it does so from the new depth
      have hlater : ∀ {lines : List Text}, (∀ before l after,
          lines = before ++ l :: after → ¬ Surfaces depth' before l) → ∀ before l after,
          line :: lines = before ++ l :: after → ¬ Surfaces depth before l := by
        intro lines hlines before l after he
        cases before with
        | nil =>
          cases he
          exact hs
        | cons first before =>
          cases he
          rw [hdepth]
          exact hlines before l after rfl
      rcases ih hd' with ⟨before, last, left, rfl, hlast, hbefore, hinner⟩ | ⟨hinner, hnone⟩
      · refine .inl ⟨line :: before, last, left, rfl, (hdepth before last).mpr hlast,
          hlater hbefore, fun more ↦ ?_⟩
        rw [List.cons_append, hbody, hinner]
        rfl
      · refine .inr ⟨?_, hlater hnone⟩
        rw [hbody, hinner]
        rfl

/-- A command that opens no block takes no line. -/
theorem taken_eq_zero [Evaluator] {command : Command} (hblock : command.block? = none) {fuel : Nat}
    {execute : Text → List Text → Macro Nat}
    (h : perform fuel execute rest command m = .ok taken m') : taken = 0 := by
  -- whatever is done first, none of these takes a line
  have hzero : ∀ {α : Type} {act : Macro α} {m : Machine},
      (act >>= fun _ ↦ pure 0) m = .ok taken m' → taken = 0 := by
    intro α act m h
    obtain ⟨_, _, _, h⟩ := exists_of_bind_ok h
    cases h
    rfl
  cases command with
  | skipBlock => cases hblock
  | typeBlock enter => cases hblock
  | function name => cases hblock
  | loop guard => cases hblock
  | ignore =>
    cases h
    rfl
  | badDeclaration line => cases h
  | badAssignment line => cases h
  | hold name =>
    cases hkey : scriptKey? name <;> simp only [perform, hkey] at h <;> exact hzero h
  | release name =>
    cases hkey : scriptKey? name <;> simp only [perform, hkey] at h <;> exact hzero h
  | delay digits =>
    cases digits with
    | none =>
      cases h
      rfl
    | some ds =>
      obtain ⟨_, _, _, h⟩ := exists_of_bind_ok h
      exact hzero h
  | type enter t =>
    rw [perform_type_eq] at h
    obtain ⟨_, _, _, h⟩ := exists_of_bind_ok h
    obtain ⟨_, _, _, h⟩ := exists_of_bind_ok h
    exact hzero h
  | print t =>
    obtain ⟨_, _, _, h⟩ := exists_of_bind_ok h
    exact hzero h
  | defaultDelay t =>
    obtain ⟨_, _, _, h⟩ := exists_of_bind_ok h
    exact hzero h
  | assign name e =>
    obtain ⟨_, _, _, h⟩ := exists_of_bind_ok h
    exact hzero h
  | define word value => exact hzero h
  | random pool count => exact hzero h
  | releaseAll => exact hzero h
  | other line =>
    obtain ⟨_, _, _, h⟩ := exists_of_bind_ok h
    split at h <;> exact hzero h

end Macro

section Execute

variable [Evaluator]

/-- A command that opens a block takes the lines up to the first that ends it, whatever comes after,
and all lines if it is a loop that none ends. -/
theorem Macro.spans_of_perform {command : Command} {block : Block}
    (hblock : command.block? = some block) {fuel : Nat} {execute : Text → List Text → Macro Nat}
    {rest : List Text} {m m' : Machine} {taken : Nat}
    (h : perform fuel execute rest command m = .ok taken m') :
    (∃ before last left, rest = before ++ last :: left ∧ taken = before.length + 1 ∧
      block.Spans m before last ∧
      ∀ more, perform fuel execute (before ++ last :: more) command m = .ok taken m') ∨
    block = .loop ∧ taken = rest.length ∧ block.Endless m rest := by
  cases command with
  | skipBlock =>
    cases hblock
    exact .inl (spans_of_skipBlock h)
  | typeBlock enter =>
    cases hblock
    rw [perform_typeBlock] at h
    obtain ⟨before, last, left, hrest, htaken, hlast, hbefore, hmore⟩ := marks_of_typeBlock h
    refine .inl ⟨before, last, left, hrest, htaken, ⟨hlast, hbefore⟩, fun more ↦ ?_⟩
    rw [perform_typeBlock]
    exact hmore more
  | function name =>
    cases hblock
    cases name with
    | none => cases h
    | some name =>
      obtain ⟨before, last, left, hrest, htaken, hspans, hmore, -⟩ := spans_of_storeFunction h
      exact .inl ⟨before, last, left, hrest, htaken, hspans, hmore⟩
  | loop guard =>
    cases hblock
    rw [perform_loop] at h
    rcases loopBody_spans Nat.one_pos rest with
      ⟨before, last, left, rfl, hlast, hbefore, hbody⟩ | ⟨hbody, hnone⟩
    · rw [hbody] at h
      have htaken : taken = before.length + 1 := by
        obtain ⟨_, _, _, h⟩ := exists_of_bind_ok h
        cases h
        rfl
      refine .inl ⟨before, last, left, rfl, htaken, ⟨hlast, hbefore⟩, fun more ↦ ?_⟩
      rw [perform_loop, hbody]
      exact h
    · rw [hbody] at h
      obtain ⟨_, _, _, h⟩ := exists_of_bind_ok h
      cases h
      exact .inr ⟨rfl, rfl, hnone⟩
  | _ => cases hblock

/-- A line that was executed was prepared, and its command performed. -/
theorem Macro.exists_of_execute_ok {fuel : Nat} {text : Text} {rest : List Text} {m m' : Machine}
    {taken : Nat} (h : execute fuel text rest m = .ok taken m') :
    ∃ fuel' line m₁, fuel = fuel' + 1 ∧ prepare text m = .ok line m₁ ∧
      perform fuel' (execute fuel') rest (Command.ofLine line) m₁ = .ok taken m' := by
  cases fuel with
  | zero => cases h
  | succ fuel =>
    obtain ⟨line, m₁, hprepare, hperform⟩ := exists_of_bind_ok h
    exact ⟨fuel, line, m₁, rfl, hprepare, hperform⟩

/-- A line that did not take all lines after it does the same whatever comes after those that it
took. -/
theorem Macro.execute_take_append {fuel : Nat} {text : Text} {rest : List Text} {m m' : Machine}
    {taken : Nat} (h : execute fuel text rest m = .ok taken m') (hlt : taken < rest.length)
    (more : List Text) : execute fuel text (rest.take taken ++ more) m = .ok taken m' := by
  obtain ⟨fuel, line, m₁, rfl, hprepare, hperform⟩ := exists_of_execute_ok h
  rw [execute, bind_of_ok hprepare]
  cases hblock : (Command.ofLine line).block? with
  | none =>
    have hreads : ¬ (Command.ofLine line).Reads := by
      cases hcommand : Command.ofLine line <;> rw [hcommand] at hblock <;>
        first | exact id | cases hblock
    rw [perform_of_not_reads hreads _ _ _ rest]
    exact hperform
  | some block =>
    rcases spans_of_perform hblock hperform with
      ⟨before, last, left, rfl, rfl, -, hmore⟩ | ⟨-, rfl, -⟩
    · have htake : (before ++ last :: left).take (before.length + 1) = before ++ [last] := by
        rw [List.append_cons, List.take_left' (by simp)]
      rw [htake, List.append_assoc]
      exact hmore more
    · exact absurd hlt (Nat.lt_irrefl _)

/-- The lines that a command leaves are those of the block that it opens. -/
theorem Macro.leaves_of_perform {command : Command} {fuel : Nat}
    {execute : Text → List Text → Macro Nat} {rest : List Text} {m m' : Machine} {taken : Nat}
    (h : perform fuel execute rest command m = .ok taken m') :
    Leaves m rest command.block? (rest.drop taken) := by
  cases hblock : command.block? with
  | none =>
    rw [taken_eq_zero hblock h]
    exact .all
  | some block =>
    rcases spans_of_perform hblock h with
      ⟨before, last, left, rfl, rfl, hspans, -⟩ | ⟨rfl, rfl, hendless⟩
    · have hleft : (before ++ last :: left).drop (before.length + 1) = left := by
        rw [List.append_cons, List.drop_left' (by simp)]
      rw [hleft]
      exact .behind rfl hspans
    · rw [List.drop_length]
      exact .nothing hendless

end Execute

/-- A line that opens a function is the command that stores it. -/
theorem Command.ofLine_of_function {line : Text} (h : Block.ofLine? line = some .function) :
    Command.ofLine line = .function (Text.words line)[1]? := by
  by_cases hfunction : Text.startsWith line "FUNCTION" = true
  · obtain ⟨t, rfl⟩ := (Text.startsWith_iff _ _).mp hfunction
    rfl
  · rw [Block.ofLine?, if_neg hfunction] at h
    split_ifs at h <;> cases h

/-- A block other than a loop that no line ends makes its command fail, if there is room for what is
typed before. -/
theorem Macro.perform_failed [Evaluator] {line : Text} {block : Block}
    (hblock : Block.ofLine? line = some block) (hloop : block ≠ .loop) {rest : List Text} {m : Machine}
    (hendless : block.Endless m rest) (hroom : block.room m rest ≤ m.trace.room) (fuel : Nat)
    (execute : Text → List Text → Macro Nat) :
    ∃ fault m', perform fuel execute rest (Command.ofLine line) m = .error (.failed fault) m' := by
  have hcommand := (Command.block?_ofLine line).trans hblock
  have hnever : ∀ taken m', perform fuel execute rest (Command.ofLine line) m ≠ .ok taken m' := by
    intro taken m' h
    rcases spans_of_perform hcommand h with ⟨before, last, left, hrest, -, hspans, -⟩ | ⟨hb, -, -⟩
    · exact hendless before last left hrest hspans.ends
    · exact hloop hb
  generalize Command.ofLine line = command at hcommand hnever
  cases command with
  | skipBlock =>
    cases hend : blockLength? (fun line ↦ Text.startsWith (Text.trim line) "END_REM") rest with
    | none => exact ⟨.endOfLines, m, by rw [perform, hend]; rfl⟩
    | some taken => exact absurd (by rw [perform, hend]; rfl) (hnever taken m)
  | typeBlock enter =>
    cases hcommand
    rw [perform_typeBlock]
    refine typeBlock_failed rfl (fun before l after hrest ↦ ?_) hroom
    rw [Bool.true_and]
    exact hendless before l after hrest
  | function name =>
    cases name with
    | none => exact ⟨_, m, rfl⟩
    | some name =>
      by_cases hlt : ((rest.map Text.trim).takeWhile (· != "END_FUNCTION".toList)).length <
          (rest.map Text.trim).length
      · exact absurd (by rw [perform, storeFunction, if_pos hlt]; rfl) (hnever _ _)
      · exact ⟨.endOfLines, _, by rw [perform, storeFunction, if_neg hlt]; rfl⟩
  | loop guard => cases hcommand; exact absurd rfl hloop
  | _ => cases hcommand

/-- A line that was executed leaves what its block leaves of the lines after it, as `parseLine` does:
all of them if it opens none, those behind the first line that ends the block, or nothing if it opens
a loop that is not ended. If it opens a function, the trimmed lines before the end are stored. And a
block without an end never lets the line end well, unless it is a loop: with fuel for the line itself
and room for what is typed before the end is missed, the line fails. -/
theorem execute_leaves [Evaluator] (fuel : Nat) (text : Text) (rest : List Text) (m : Machine) :
    (∀ taken m', execute fuel text rest m = .ok taken m' →
      ∃ line m₁, prepare text m = .ok line m₁ ∧
        Leaves m₁ rest (Block.ofLine? line) (rest.drop taken) ∧
        (Block.ofLine? line = some .function → ∃ name before last left,
          (Text.words line)[1]? = some name ∧ rest = before ++ last :: left ∧
          Block.function.Spans m₁ before last ∧
          m' = { m₁ with functions := m₁.functions.put name (before.map Text.trim) })) ∧
    ∀ line m₁ block, prepare text m = .ok line m₁ → Block.ofLine? line = some block →
      block ≠ .loop → block.Endless m₁ rest →
      ∃ halt m', execute fuel text rest m = .error halt m' ∧
        (0 < fuel → block.room m₁ rest ≤ m₁.trace.room → ∃ fault, halt = .failed fault) := by
  refine ⟨fun taken m' h ↦ ?_, fun line m₁ block hprepare hblock hloop hendless ↦ ?_⟩
  · obtain ⟨fuel, line, m₁, -, hprepare, hperform⟩ := exists_of_execute_ok h
    refine ⟨line, m₁, hprepare, ?_, fun hfunction ↦ ?_⟩
    · rw [← Command.block?_ofLine]
      exact leaves_of_perform hperform
    · rw [Command.ofLine_of_function hfunction] at hperform
      cases hname : (Text.words line)[1]? with
      | none =>
        rw [hname] at hperform
        cases hperform
      | some name =>
        rw [hname] at hperform
        obtain ⟨before, last, left, hrest, -, hspans, -, hstored⟩ := spans_of_storeFunction hperform
        exact ⟨name, before, last, left, rfl, hrest, hspans, hstored⟩
  · cases hresult : execute fuel text rest m with
    | error halt m' =>
      refine ⟨halt, m', rfl, fun hfuel hroom ↦ ?_⟩
      obtain ⟨fuel, rfl⟩ : ∃ k, fuel = k + 1 := ⟨fuel - 1, by omega⟩
      obtain ⟨fault, m₂, hfailed⟩ := perform_failed hblock hloop hendless hroom fuel (execute fuel)
      rw [execute, bind_of_ok hprepare, hfailed] at hresult
      cases hresult
      exact ⟨fault, rfl⟩
    | ok taken m' =>
      obtain ⟨fuel, line', m₁', -, hprepare', hperform⟩ := exists_of_execute_ok hresult
      rw [hprepare] at hprepare'
      cases hprepare'
      rcases spans_of_perform ((Command.block?_ofLine line).trans hblock) hperform with
        ⟨before, last, left, hrest, -, hspans, -⟩ | ⟨hblock, -, -⟩
      · exact absurd hspans.ends (hendless before last left hrest)
      · exact absurd hblock hloop

/-- The value in which work ended, if it ended well. -/
def resultValue? {α : Type} : EStateM.Result (Halt Fault) Machine α → Option α
  | .ok a _ => some a
  | .error .. => none

/-- Work that ended in a value left a machine. -/
theorem exists_of_resultValue? {α : Type} {r : EStateM.Result (Halt Fault) Machine α} {a : α}
    (h : resultValue? r = some a) : ∃ m, r = .ok a m := by
  cases r with
  | ok b m =>
    cases h
    exact ⟨m, rfl⟩
  | error halt m => cases h

/-- Lines after a loop: another loop, and an end mark in small letters. -/
def nestedLoop : List Text := ["WHILE TRUE", "END_WHILE", "  a", "end_while", "ENTER"]

/-- A loop that is not entered leaves the line behind the end mark that belongs to it, and a remark
that none of these lines ends fails. -/
theorem execute_leaves_nested :
    (∃ m' m₁, execute 1 "WHILE 1 > 2".toList nestedLoop (Machine.fresh 1 10 10) = .ok 4 m' ∧
      Leaves m₁ nestedLoop (some .loop) ["ENTER".toList]) ∧
    ∃ fault m', execute 1 "REM_BLOCK".toList nestedLoop (Machine.fresh 1 10 10) =
      .error (.failed fault) m' := by
  constructor
  · have htaken : resultValue?
        (execute 1 "WHILE 1 > 2".toList nestedLoop (Machine.fresh 1 10 10)) = some 4 := by
      decide +kernel
    have hline : resultValue? (prepare "WHILE 1 > 2".toList (Machine.fresh 1 10 10)) =
        some "WHILE 1 > 2".toList := by decide +kernel
    obtain ⟨m', hrun⟩ := exists_of_resultValue? htaken
    obtain ⟨m₁, hprepare⟩ := exists_of_resultValue? hline
    obtain ⟨line, m₁', hprepare', hleaves, -⟩ := (execute_leaves 1 _ _ _).1 4 m' hrun
    rw [hprepare] at hprepare'
    cases hprepare'
    exact ⟨m', m₁, hrun, hleaves⟩
  · have hline : resultValue? (prepare "REM_BLOCK".toList (Machine.fresh 1 10 10)) =
        some "REM_BLOCK".toList := by decide +kernel
    obtain ⟨m₁, hprepare⟩ := exists_of_resultValue? hline
    have hendless : Block.remark.Endless m₁ nestedLoop := by
      intro before line after hlines hends
      have hall : ∀ line ∈ nestedLoop, Text.startsWith (Text.trim line) "END_REM" = false := by
        decide +kernel
      rw [Block.Ends, hall line (hlines ▸ List.mem_append_right _ List.mem_cons_self)] at hends
      exact Bool.false_ne_true hends
    obtain ⟨halt, m', hrun, hfails⟩ := (execute_leaves 1 _ _ _).2 _ m₁ .remark hprepare rfl
      (by rintro ⟨⟩) hendless
    obtain ⟨fault, rfl⟩ := hfails Nat.one_pos (Nat.zero_le _)
    exact ⟨fault, m', hrun⟩

end Deskhand.Script
