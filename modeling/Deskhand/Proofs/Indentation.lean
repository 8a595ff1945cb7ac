import Deskhand.Proofs.BlockExtent
import Mathlib.Data.List.Forall2

/-!
# Indentation

Every line is trimmed before it is executed, typed, stored in a function or taken for the end of a
remark, so its indentation plays no part there. But the end of a loop is looked for in the lines as
they are written, and an indented `WHILE` or `END_WHILE` is not found. So lines may be indented in
any way exactly as long as these two are left alone.
-/

namespace Deskhand

namespace Text

/-- The characters by which lines are indented. -/
def isIndent (c : Char) : Bool := c == ' ' || c == '\t'

/-- A line without its indentation. -/
def unindented (line : Text) : Text := line.dropWhile isIndent

private theorem isBlank_of_isIndent {c : Char} (h : isIndent c = true) : isBlank c = true := by
  rw [isIndent, Bool.or_eq_true, beq_iff_eq, beq_iff_eq] at h
  rcases h with rfl | rfl
  · exact isBlank_space
  · exact isBlank_tab

private theorem isLineEnd_of_isIndent {c : Char} (h : isIndent c = true) : isLineEnd c = false := by
  rw [isIndent, Bool.or_eq_true, beq_iff_eq, beq_iff_eq] at h
  rcases h with rfl | rfl <;> decide

/-- Trimming takes the indentation away. -/
theorem trim_unindented (line : Text) : trim (unindented line) = trim line := by
  have hleft : trimLeft (unindented line) = trimLeft line := by
    induction line with
    | nil => rfl
    | cons c line ih =>
      cases hc : isIndent c with
      | true =>
        rw [unindented, List.dropWhile_cons_of_pos hc, trimLeft, trimLeft,
          List.dropWhile_cons_of_pos (isBlank_of_isIndent hc)]
        exact ih
      | false => rw [unindented, List.dropWhile_cons_of_neg (by simp [hc])]
  rw [trim, trim, hleft]

/-- What stands before a mark other than a blank may be indented as well. -/
theorem takeWhile_unindented {p : Char → Bool} (hp : ∀ c, isIndent c = true → p c = true)
    (line : Text) : (unindented line).takeWhile p = unindented (line.takeWhile p) := by
  induction line with
  | nil => rfl
  | cons c line ih =>
    cases hc : isIndent c with
    | true =>
      rw [List.takeWhile_cons_of_pos (hp c hc), unindented, unindented,
        List.dropWhile_cons_of_pos hc, List.dropWhile_cons_of_pos hc]
      exact ih
    | false =>
      rw [unindented, List.dropWhile_cons_of_neg (by simp [hc])]
      cases hpc : p c with
      | true =>
        rw [List.takeWhile_cons_of_pos hpc, unindented, List.dropWhile_cons_of_neg (by simp [hc])]
      | false =>
        rw [List.takeWhile_cons_of_neg (by simp [hpc])]
        rfl

private theorem isIndent_or_mem_unindented {line : Text} {c : Char} (h : c ∈ line) :
    isIndent c = true ∨ c ∈ unindented line := by
  rw [← List.takeWhile_append_dropWhile (p := isIndent) (l := line), List.mem_append] at h
  exact h.imp_left fun hc ↦ List.mem_takeWhile_imp hc

private theorem isLineEnd_of_unindented_eq {line line' : Text}
    (h : unindented line = unindented line') (hline : ∀ c ∈ line, isLineEnd c = false) :
    ∀ c ∈ line', isLineEnd c = false := by
  intro c hc
  rcases isIndent_or_mem_unindented hc with hc | hc
  · exact isLineEnd_of_isIndent hc
  · rw [← h] at hc
    exact hline c ((List.dropWhile_sublist isIndent).subset hc)

/-- A text that can stand on a line and is not empty. -/
def IsLine (line : Text) : Prop := line ≠ [] ∧ ∀ c ∈ line, isLineEnd c = false

instance (line : Text) : Decidable (IsLine line) :=
  decidable_of_iff (line ≠ [] ∧ line.all (fun c ↦ !isLineEnd c) = true)
    (and_congr_right fun _ ↦ by simp only [List.all_eq_true, Bool.not_eq_true'])

/-- The lines of a text have no line ends in them. -/
theorem isLineEnd_of_mem_lines {t line : Text} (hline : line ∈ lines t) {c : Char} (hc : c ∈ line) :
    isLineEnd c = false := by
  have hfrom : ∀ (t current : Text) (afterReturn : Bool), (∀ c ∈ current, isLineEnd c = false) →
      ∀ line ∈ linesFrom current afterReturn t, ∀ c ∈ line, isLineEnd c = false := by
    intro t
    induction t with
    | nil =>
      intro current afterReturn hcurrent line hline c hc
      rw [linesFrom] at hline
      split at hline
      · cases hline
      · rw [List.mem_singleton.mp hline, List.mem_reverse] at hc
        exact hcurrent c hc
    | cons d t ih =>
      intro current afterReturn hcurrent line hline c hc
      rw [linesFrom] at hline
      split at hline
      · exact ih [] false (by simp) line hline c hc
      · split at hline
        · rcases List.mem_cons.mp hline with rfl | hline
          · exact hcurrent c (List.mem_reverse.mp hc)
          · exact ih [] _ (by simp) line hline c hc
        · next hd =>
          refine ih (d :: current) false (fun e he ↦ ?_) line hline c hc
          rcases List.mem_cons.mp he with rfl | he
          · simpa using hd
          · exact hcurrent e he
  exact hfrom t [] false (by simp) line hline c hc

end Text

namespace Script

open Macro
open Text (unindented isIndent)

/-! ### Scripts that are indented in different ways -/

/-- Two lines that differ at most in their indentation, and are alike in beginning or ending a
loop. -/
structure Reindented (line line' : Text) : Prop where
  same : unindented line = unindented line'
  opens : opensLoop line = opensLoop line'
  closes : closesLoop line = closesLoop line'

/-- They are the same when trimmed. -/
theorem Reindented.trim {line line' : Text} (h : Reindented line line') :
    Text.trim line = Text.trim line' := by
  rw [← Text.trim_unindented line, h.same, Text.trim_unindented]

/-- They are the same without comments. -/
theorem Reindented.withoutComment {line line' : Text} (h : Reindented line line') :
    withoutComment line = withoutComment line' := by
  have hmark : ∀ c, isIndent c = true → (c != '#') = true := by
    intro c hc
    rw [isIndent, Bool.or_eq_true, beq_iff_eq, beq_iff_eq] at hc
    rcases hc with rfl | rfl <;> decide
  have hcomment : ∀ line, Macro.withoutComment line =
      Text.trim ((unindented line).takeWhile (· != '#')) := by
    intro line
    rw [Text.takeWhile_unindented hmark, Text.trim_unindented]
    rfl
  rw [hcomment, hcomment, h.same]

section Congr

variable {rest rest' : List Text} (h : List.Forall₂ Reindented rest rest')

include h

private theorem map_trim_of_reindented : rest.map Text.trim = rest'.map Text.trim := by
  induction h with
  | nil => rfl
  | cons hline _ ih => rw [List.map_cons, List.map_cons, hline.trim, ih]

/-- The bodies of the loop are indented in different ways, and take as many lines. -/
theorem loopBody_of_reindented (depth : Nat) :
    List.Forall₂ Reindented (loopBody depth rest).1 (loopBody depth rest').1 ∧
      (loopBody depth rest).2 = (loopBody depth rest').2 := by
  induction h generalizing depth with
  | nil => exact ⟨.nil, rfl⟩
  | cons hline _ ih =>
    rw [loopBody_cons, loopBody_cons, ← hline.opens, ← hline.closes]
    split
    · exact ⟨.cons hline (ih _).1, congrArg (· + 1) (ih _).2⟩
    · split
      · split
        · exact ⟨.nil, rfl⟩
        · exact ⟨.cons hline (ih _).1, congrArg (· + 1) (ih _).2⟩
      · exact ⟨.cons hline (ih _).1, congrArg (· + 1) (ih _).2⟩

namespace Macro

private theorem typeBlock_of_reindented (enter : Bool) (mark : Text) (first : Bool) :
    typeBlock enter mark first rest = typeBlock enter mark first rest' := by
  induction h generalizing first with
  | nil => rfl
  | cons hline _ ih => rw [typeBlock_cons, typeBlock_cons, hline.trim, ih]

variable {execute : Text → List Text → Macro Nat}
  (hexecute : ∀ {text text' : Text} {rest rest' : List Text}, Text.trim text = Text.trim text' →
    List.Forall₂ Reindented rest rest' → execute text rest = execute text' rest')

include hexecute

private theorem bodyOnce_of_reindented : bodyOnce execute rest = bodyOnce execute rest' := by
  induction h with
  | nil => rfl
  | cons hline hrest ih => rw [bodyOnce, bodyOnce, hexecute hline.trim hrest, ih]

/-- Commands are performed alike. -/
theorem perform_of_reindented (fuel : Nat) (command : Command) :
    perform fuel execute rest command = perform fuel execute rest' command := by
  have htrim := map_trim_of_reindented h
  by_cases hreads : command.Reads
  · cases command with
    | skipBlock =>
      have hlength : ∀ lines : List Text, blockLength?
          (fun line ↦ Text.startsWith (Text.trim line) "END_REM") lines =
            blockLength? (fun line ↦ Text.startsWith line "END_REM") (lines.map Text.trim) := by
        intro lines
        rw [blockLength?, blockLength?, List.findIdx?_map]
        rfl
      rw [perform, perform, hlength, hlength, htrim]
    | typeBlock enter => rw [perform, perform, typeBlock_of_reindented h]
    | function name =>
      cases name with
      | none => rfl
      | some name => rw [perform, perform, storeFunction, storeFunction, htrim]
    | loop guard =>
      obtain ⟨hbody, htaken⟩ := loopBody_of_reindented h 1
      have hloop : ∀ n, loopWhile execute guard (loopBody 1 rest).1 n =
          loopWhile execute guard (loopBody 1 rest').1 n := by
        intro n
        induction n with
        | zero => rfl
        | succ n ih =>
          rw [loopWhile, loopWhile, ih, bodyOnce_of_reindented hbody hexecute]
      rw [perform_loop, perform_loop, hloop, htaken]
    | _ => exact hreads.elim
  · exact perform_of_not_reads hreads fuel execute rest rest'

end Macro

end Congr

namespace Macro

private theorem execute_of_reindented (fuel : Nat) {text text' : Text} {rest rest' : List Text}
    (ht : Text.trim text = Text.trim text') (h : List.Forall₂ Reindented rest rest') :
    execute fuel text rest = execute fuel text' rest' := by
  induction fuel generalizing text text' rest rest' with
  | zero => rfl
  | succ fuel ih =>
    rw [execute, execute, prepare, prepare, ht]
    refine bind_congr fun line ↦ ?_
    exact perform_of_reindented h ih fuel (Command.ofLine line)

/-- So are lines that are executed a number of times. -/
theorem repeatLine_of_reindented (text : Text) (count : Nat) {rest rest' : List Text}
    (h : List.Forall₂ Reindented rest rest') :
    repeatLine text count rest = repeatLine text count rest' := by
  have hline : ∀ {rest rest' : List Text}, List.Forall₂ Reindented rest rest' →
      line text rest = line text rest' := fun h ↦
    bind_congr fun m ↦ execute_of_reindented _ rfl h
  induction count generalizing rest rest' with
  | zero => rfl
  | succ count ih =>
    rw [repeatLine, repeatLine, hline h]
    refine bind_congr fun taken ↦ bind_congr fun _ ↦ ?_
    rw [ih (List.forall₂_drop taken h)]

/-- So are the lines of a script. -/
theorem runLines_of_reindented (previous : Text) {lines lines' : List Text}
    (h : List.Forall₂ Reindented lines lines') :
    runLines previous lines = runLines previous lines' := by
  -- every branch goes on with fewer lines
  induction hn : lines.length using Nat.strong_induction_on generalizing lines lines' previous with
  | h n ih =>
    cases h with
    | nil => rfl
    | @cons raw raw' rest rest' hraw hrest =>
      rw [List.length_cons] at hn
      have hdrop : ∀ previous taken,
          runLines previous (rest.drop taken) = runLines previous (rest'.drop taken) := by
        intro previous taken
        have hle : (rest.drop taken).length ≤ rest.length := by
          rw [List.length_drop]
          exact Nat.sub_le ..
        exact ih _ (by omega) previous (List.forall₂_drop taken hrest) rfl
      rw [runLines, runLines, ← hraw.withoutComment]
      split
      · exact hdrop previous 0
      · split
        · refine bind_congr fun n ↦ ?_
          rw [repeatLine_of_reindented previous n.toNat hrest]
          exact bind_congr fun taken ↦ bind_congr fun _ ↦ hdrop previous taken
        · split
          · rfl
          · split
            · rfl
            · have hline : ∀ text, line text rest = line text rest' := fun text ↦
                bind_congr fun m ↦ execute_of_reindented _ rfl hrest
              rw [hline]
              exact bind_congr fun taken ↦ bind_congr fun _ ↦ hdrop _ taken

private theorem script_of_reindented {t t' : Text}
    (h : List.Forall₂ Reindented (Text.lines t) (Text.lines t')) : script t = script t' := by
  have hagain : ∀ fuel, runAgain (Text.lines t) fuel = runAgain (Text.lines t') fuel := by
    intro fuel
    induction fuel with
    | zero => rfl
    | succ fuel ih => rw [runAgain, runAgain, runLines_of_reindented [] h, ih]
  exact bind_congr fun m ↦ hagain _

end Macro

/-! ### Loop marks -/

/-- Whether a line reads as the beginning or the end of a loop. -/
def isLoopMark (line : Text) : Bool := opensLoop line || closesLoop line

private theorem unindented_of_isLoopMark {line : Text} (h : isLoopMark line = true) :
    unindented line = line := by
  cases line with
  | nil => rfl
  | cons c line =>
    have hc : isIndent c = false := by
      by_contra hc
      rw [Bool.not_eq_false, isIndent, Bool.or_eq_true, beq_iff_eq, beq_iff_eq] at hc
      rcases hc with rfl | rfl <;> cases h
    rw [unindented, List.dropWhile_cons_of_neg (by simp [hc])]

/-- A line that reads as a mark can stand in a script, and so can any that differs from it in its
indentation. -/
theorem isLine_of_isLoopMark {mark other : Text} (hmark : isLoopMark mark = true)
    (h : unindented mark = unindented other) (hends : ∀ c ∈ mark, Text.isLineEnd c = false) :
    Text.IsLine mark ∧ Text.IsLine other := by
  have hne : mark ≠ [] := by
    rintro rfl
    cases hmark
  refine ⟨⟨hne, hends⟩, ?_, Text.isLineEnd_of_unindented_eq h hends⟩
  rintro rfl
  exact hne ((unindented_of_isLoopMark hmark).symm.trans h)

private theorem eq_of_isLoopMark {l l' : Text} (h : unindented l = unindented l')
    (hl : isLoopMark l = true) (hl' : isLoopMark l' = true) : l = l' := by
  rw [← unindented_of_isLoopMark hl, h, unindented_of_isLoopMark hl']

/-! ### A loop that is not entered -/

/-- The first line of a loop whose guard is false. -/
def closedLoop : Text := "WHILE 1 > 2"

/-- The machine after the guard was looked at. -/
def pastGuard : Machine := Watched.machineOf (prepare closedLoop (Machine.fresh 1 10 10))

/-- What is done after the loop. -/
def afterLoop (left : List Text) : Macro Bool := do
  defaultPause
  runLines closedLoop left

/-- The loop takes its body and executes nothing. -/
theorem line_closedLoop (rest : List Text) :
    line closedLoop rest (Machine.fresh 1 10 10) = .ok (loopBody 1 rest).2 pastGuard := by
  have hline : resultValue? (prepare closedLoop (Machine.fresh 1 10 10)) = some closedLoop := by
    decide +kernel
  have hguard : (resultValue? (Macro.evaluate "1 > 2" pastGuard)).map (·.equal (.bool true)) =
      some false := by decide
  obtain ⟨m₁, hprepare⟩ := exists_of_resultValue? hline
  obtain rfl : pastGuard = m₁ := by
    rw [pastGuard, hprepare]
    rfl
  obtain ⟨v, hv, hequal⟩ := Option.map_eq_some_iff.mp hguard
  obtain ⟨m₂, hevaluate⟩ := exists_of_resultValue? hv
  obtain rfl : pastGuard = m₂ := (keeps_evaluate keeps_calculator "1 > 2").of_ok hevaluate
  have hloop : ∀ execute body fuel,
      loopWhile execute "1 > 2" body (fuel + 1) pastGuard = .ok () pastGuard := by
    intro execute body fuel
    rw [loopWhile, bind_of_ok hevaluate, hequal]
    rfl
  have hcommand : Command.ofLine closedLoop = .loop "1 > 2" := by decide +kernel
  rw [line_eq_bind, bind_of_ok hprepare, hcommand, perform_loop, bind_of_ok (hloop _ _ _)]
  rfl

/-- A script that begins with the loop goes on with the lines that are left, unless they ask for a
restart. -/
theorem reports_closedLoop {rest left : List Text}
    (hrest : ∀ line ∈ rest, Text.IsLine line) (hleft : rest.drop (loopBody 1 rest).2 = left)
    (hends : resultValue? (afterLoop left pastGuard) = some false) :
    reportCount? (script (Text.join "\n" (closedLoop :: rest)) (Machine.fresh 1 10 10)) =
      reportCount? (afterLoop left pastGuard) := by
  have hlines : Text.lines (Text.join "\n" (closedLoop :: rest)) = closedLoop :: rest := by
    refine Text.lines_join fun line hmem ↦ ?_
    rcases List.mem_cons.mp hmem with rfl | hmem
    · exact (by decide : Text.IsLine closedLoop)
    · exact hrest line hmem
  obtain ⟨m', hrun⟩ := exists_of_resultValue? hends
  have hafter : runLines [] (closedLoop :: rest) (Machine.fresh 1 10 10) = .ok false m' := by
    have htext : withoutComment closedLoop = closedLoop :=
      Text.trim_of_visible (by decide) (by decide)
    rw [runLines_cons htext (by decide) rfl rfl rfl, bind_of_ok (line_closedLoop rest), hleft]
    exact hrun
  rw [script, bind_of_ok (run_get _), hlines, runAgain, bind_of_ok hafter, hrun]
  rfl

/-- A line that presses a key. -/
def enterLine : Text := "ENTER"

private theorem loopBody_of_not_isLoopMark {line : Text} (h : isLoopMark line = false) (depth : Nat)
    (rest : List Text) : loopBody depth (line :: rest) =
      (line :: (loopBody depth rest).1, (loopBody depth rest).2 + 1) := by
  rw [isLoopMark, Bool.or_eq_false_iff] at h
  rw [loopBody_cons, h.1, h.2]
  rfl

/-- A line that reads as a mark can be followed by lines of which the loop leaves the last, or not,
as it would not, or would, if the line were no mark. -/
theorem left_of_isLoopMark {mark other : Text} (hmark : isLoopMark mark = true)
    (hother : isLoopMark other = false) : ∃ after ⊆ [endLine, enterLine], ∃ left left' : List Text,
      (mark :: after).drop (loopBody 1 (mark :: after)).2 = left ∧
      (other :: after).drop (loopBody 1 (other :: after)).2 = left' ∧
      (left = [] ∧ left' = [enterLine] ∨ left = [enterLine] ∧ left' = []) := by
  have henter : isLoopMark enterLine = false := by decide
  have hlast : ∀ depth, loopBody depth [enterLine] = ([enterLine], 1) := fun depth ↦
    loopBody_of_not_isLoopMark henter depth []
  cases ho : opensLoop mark with
  | true =>
    refine ⟨[endLine, enterLine], List.Subset.refl _, [], [enterLine], ?_, ?_, .inl ⟨rfl, rfl⟩⟩
    · rw [loopBody_cons, ho, if_pos rfl, loopBody_endLine, if_neg (by decide), hlast]
      rfl
    · rw [loopBody_of_not_isLoopMark hother, loopBody_endLine, if_pos (by decide)]
      rfl
  | false =>
    have hc : closesLoop mark = true := by
      rw [isLoopMark, ho, Bool.false_or] at hmark
      exact hmark
    refine ⟨[enterLine], List.subset_cons_self _ _, [enterLine], [], ?_, ?_, .inr ⟨rfl, rfl⟩⟩
    · rw [loopBody_cons, ho, hc]
      rfl
    · rw [loopBody_of_not_isLoopMark hother, hlast]
      rfl

/-- A line that reads as a mark cannot take the place of one that does not in every script. -/
theorem exists_reports_ne {mark other : Text} (hmark : isLoopMark mark = true)
    (hother : isLoopMark other = false) (hm : Text.IsLine mark) (ho : Text.IsLine other) :
    ∃ after : List Text, (∀ line ∈ after, Text.IsLine line) ∧
      reportCount? (script (Text.join "\n" (closedLoop :: mark :: after)) (Machine.fresh 1 10 10)) ≠
        reportCount? (script (Text.join "\n" (closedLoop :: other :: after))
          (Machine.fresh 1 10 10)) := by
  obtain ⟨after, hsub, left, left', hleft, hleft', hcases⟩ := left_of_isLoopMark hmark hother
  have hwords : ∀ line ∈ [endLine, enterLine], Text.IsLine line := by decide
  have hafter : ∀ line ∈ after, Text.IsLine line := fun line hl ↦ hwords line (hsub hl)
  have hrest : ∀ line ∈ mark :: after, Text.IsLine line := List.forall_mem_cons.mpr ⟨hm, hafter⟩
  have hrest' : ∀ line ∈ other :: after, Text.IsLine line := List.forall_mem_cons.mpr ⟨ho, hafter⟩
  have hnone : resultValue? (afterLoop [] pastGuard) = some false ∧
      reportCount? (afterLoop [] pastGuard) = some 0 := by decide +kernel
  have hkey : resultValue? (afterLoop [enterLine] pastGuard) = some false ∧
      reportCount? (afterLoop [enterLine] pastGuard) = some 2 := by decide +kernel
  refine ⟨after, hafter, ?_⟩
  rcases hcases with ⟨rfl, rfl⟩ | ⟨rfl, rfl⟩
  · rw [reports_closedLoop hrest hleft hnone.1, reports_closedLoop hrest' hleft' hkey.1, hnone.2,
      hkey.2]
    decide
  · rw [reports_closedLoop hrest hleft hkey.1, reports_closedLoop hrest' hleft' hnone.1, hnone.2,
      hkey.2]
    decide

/-- Whichever changes of indentation are allowed, they make no difference to any script in any state,
the functions that it stores included, exactly if none of them makes a mark of a loop out of a line
that is none, or the other way round (`run_ducky_script_from_string`). -/
theorem script_reindented_iff {S : Text → Text → Prop} (hrefl : ∀ line, S line line)
    (hindent : ∀ line line', S line line' → unindented line = unindented line') :
    (∀ t t' m, List.Forall₂ S (Text.lines t) (Text.lines t') → script t m = script t' m) ↔
      ∀ line line', (∀ c ∈ line, Text.isLineEnd c = false) → S line line' →
        opensLoop line = opensLoop line' ∧ closesLoop line = closesLoop line' := by
  constructor
  · intro hscripts line line' hends hS
    have hsame := hindent line line' hS
    have hends' := Text.isLineEnd_of_unindented_eq hsame hends
    -- in place of each other they make no difference to the scripts that tell marks apart
    have hequal : ∀ after : List Text, (∀ l ∈ after, Text.IsLine l) → Text.IsLine line →
        Text.IsLine line' → script (Text.join "\n" (closedLoop :: line :: after)) =
          script (Text.join "\n" (closedLoop :: line' :: after)) := by
      intro after hafter hline hline'
      have hloop : Text.IsLine closedLoop := by decide
      have hlines : ∀ l, Text.IsLine l → Text.lines (Text.join "\n" (closedLoop :: l :: after)) =
          closedLoop :: l :: after := fun l hl ↦
        Text.lines_join (List.forall_mem_cons.mpr ⟨hloop, List.forall_mem_cons.mpr ⟨hl, hafter⟩⟩)
      funext m
      refine hscripts _ _ m ?_
      rw [hlines line hline, hlines line' hline']
      exact .cons (hrefl _) (.cons hS (List.forall₂_same.mpr fun l _ ↦ hrefl l))
    cases hm : isLoopMark line <;> cases hm' : isLoopMark line'
    · rw [isLoopMark, Bool.or_eq_false_iff] at hm hm'
      exact ⟨hm.1.trans hm'.1.symm, hm.2.trans hm'.2.symm⟩
    · obtain ⟨hline', hline⟩ := isLine_of_isLoopMark hm' hsame.symm hends'
      obtain ⟨after, hafter, hcount⟩ := exists_reports_ne hm' hm hline' hline
      exact absurd (by rw [hequal after hafter hline hline']) hcount
    · obtain ⟨hline, hline'⟩ := isLine_of_isLoopMark hm hsame hends
      obtain ⟨after, hafter, hcount⟩ := exists_reports_ne hm hm' hline hline'
      exact absurd (by rw [hequal after hafter hline hline']) hcount
    · rw [eq_of_isLoopMark hsame hm hm']
      exact ⟨rfl, rfl⟩
  · intro hmarks t t' m h
    have hreindented : ∀ {lines lines' : List Text}, List.Forall₂ S lines lines' →
        (∀ l ∈ lines, ∀ c ∈ l, Text.isLineEnd c = false) →
        List.Forall₂ Reindented lines lines' := by
      intro lines lines' h hends
      induction h with
      | nil => exact .nil
      | @cons line line' lines lines' hS _ ih =>
        rw [List.forall_mem_cons] at hends
        obtain ⟨hopens, hcloses⟩ := hmarks line line' hends.1 hS
        exact .cons ⟨hindent line line' hS, hopens, hcloses⟩ (ih hends.2)
    rw [script_of_reindented (hreindented h fun l hl c hc ↦ Text.isLineEnd_of_mem_lines hl hc)]

/-- A script with a block of text, a function and a loop. -/
def flushScript : Text :=
  "STRING\na\nEND_STRING\nFUNCTION f\nENTER\nEND_FUNCTION\nWHILE 1 > 2\nf\nEND_WHILE\nf"

/-- The same script with all lines indented but the marks of the loop. -/
def indentedScript : Text :=
  " STRING\n\ta\n END_STRING\n FUNCTION f\n\tENTER\n END_FUNCTION\nWHILE 1 > 2\n f\nEND_WHILE\n f"

/-- Indenting all lines but the marks makes no difference. -/
theorem script_reindented_iff_other_lines : script flushScript = script indentedScript := by
  funext m
  refine (script_reindented_iff (S := fun line line' ↦ unindented line = unindented line' ∧
    opensLoop line = opensLoop line' ∧ closesLoop line = closesLoop line') (fun _ ↦ ⟨rfl, rfl, rfl⟩)
    fun _ _ h ↦ h.1).mpr (fun _ _ _ h ↦ h.2) _ _ m ?_
  decide +kernel

/-- With its end mark indented the loop takes the key after it. -/
theorem indented_end_mark_missed :
    List.Forall₂ (fun line line' ↦ unindented line = unindented line')
      (Text.lines "WHILE 1 > 2\nEND_WHILE\nENTER".toList)
      (Text.lines "WHILE 1 > 2\n END_WHILE\nENTER".toList) ∧
    script "WHILE 1 > 2\nEND_WHILE\nENTER" (Machine.fresh 1 10 10) ≠
      script "WHILE 1 > 2\n END_WHILE\nENTER" (Machine.fresh 1 10 10) := by
  have hflush : reportCount?
      (script "WHILE 1 > 2\nEND_WHILE\nENTER" (Machine.fresh 1 10 10)) = some 2 := by decide +kernel
  have hindented : reportCount?
      (script "WHILE 1 > 2\n END_WHILE\nENTER" (Machine.fresh 1 10 10)) = some 0 := by
    decide +kernel
  refine ⟨by decide +kernel, fun h ↦ ?_⟩
  rw [h, hindented] at hflush
  cases hflush

end Script

end Deskhand
