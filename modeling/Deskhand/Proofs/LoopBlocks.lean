import Deskhand.Proofs.Outcome
import Deskhand.Script.Run

/-!
# Loops and the blocks inside them

The body of a loop is written as a tree of commands: single lines, blocks of text with their last
line, and further loops. `Body.pass` executes the commands once each in order; told to, it goes
through the lines of every nested block again afterwards, which is what a loop does.
-/

namespace Deskhand.Script

open Macro

/-- The line that opens a loop. -/
def loopLine (guard : Text) : Text := "WHILE ".toList ++ guard

/-- The guard follows the word that opens a loop. -/
theorem loopLine_eq (guard : Text) : loopLine guard = "WHILE ".toList ++ guard := rfl

/-- The line that ends a loop. -/
def endLine : Text := "END_WHILE"

/-- The commands in the body of a loop. -/
inductive Body where
  | done
  | line (text : Text) (rest : Body)
  /-- A line that reads further lines, those lines, and the one that ends them. -/
  | block (opener : Text) (inner : List Text) (close : Text) (rest : Body)
  | loop (guard : Text) (inner rest : Body)

namespace Body

/-- The lines in which a body is written. -/
def lines : Body → List Text
  | .done => []
  | .line text rest => text :: rest.lines
  | .block opener inner close rest => opener :: (inner ++ close :: rest.lines)
  | .loop guard inner rest => loopLine guard :: (inner.lines ++ endLine :: rest.lines)

/-- How many commands a body has, those inside its blocks not counted. -/
def size : Body → Nat
  | .done => 0
  | .line _ rest => rest.size + 1
  | .block _ _ _ rest => rest.size + 1
  | .loop _ _ rest => rest.size + 1

/-- A body of single lines only. -/
def Flat : Body → Prop
  | .done => True
  | .line _ rest => rest.Flat
  | .block .. => False
  | .loop .. => False

/-- A body has at least as many lines as commands. -/
theorem size_le (body : Body) : body.size ≤ body.lines.length := by
  induction body with
  | done => exact Nat.le_refl 0
  | line text rest ih =>
    simp only [size, lines, List.length_cons]
    omega
  | block opener inner close rest ih =>
    simp only [size, lines, List.length_cons, List.length_append]
    omega
  | loop guard inner rest _ ih =>
    simp only [size, lines, List.length_cons, List.length_append]
    omega

/-- A body with a nested block has a command, and more lines than commands. -/
theorem size_lt_of_not_flat {body : Body} (h : ¬ body.Flat) :
    0 < body.size ∧ body.size < body.lines.length := by
  induction body with
  | done => exact absurd trivial h
  | line text rest ih =>
    have hrest := ih h
    simp only [size, lines, List.length_cons]
    omega
  | block opener inner close rest =>
    have hrest := rest.size_le
    simp only [size, lines, List.length_cons, List.length_append]
    omega
  | loop guard inner rest =>
    have hrest := rest.size_le
    simp only [size, lines, List.length_cons, List.length_append]
    omega

end Body

/-! ### Finding the end of a loop -/

/-- Whether a line reads as the beginning of a loop when its end is looked for. -/
def opensLoop (line : Text) : Bool := Text.startsWith (Text.upper line) "WHILE"

/-- Whether a line reads as the end of a loop. -/
def closesLoop (line : Text) : Bool := Text.startsWith (Text.upper line) "END_WHILE"

/-- How deep in loops the line after `lines` stands, if `lines` do not end the loop they begin in. -/
def depthAfter (depth : Nat) : List Text → Option Nat
  | [] => some depth
  | line :: rest =>
    if opensLoop line then depthAfter (depth + 1) rest
    else if closesLoop line then if depth == 1 then none else depthAfter (depth - 1) rest
    else depthAfter depth rest

/-- Lines in which every line that reads as the beginning of a loop has one that reads as its end,
and the other way round. -/
def Balanced (lines : List Text) : Prop := depthAfter 1 lines = some 1

instance (lines : List Text) : Decidable (Balanced lines) :=
  inferInstanceAs (Decidable (_ = _))

/-- Every loop inside the body has a balanced body of its own. -/
def Body.Bracketed : Body → Prop
  | .done => True
  | .line _ rest => rest.Bracketed
  | .block _ _ _ rest => rest.Bracketed
  | .loop _ inner rest => Balanced inner.lines ∧ inner.Bracketed ∧ rest.Bracketed

/-- A body of single lines has no loop inside. -/
theorem Body.Flat.bracketed {body : Body} (h : body.Flat) : body.Bracketed := by
  induction body with
  | done => trivial
  | line text rest ih => exact ih h
  | block => exact h.elim
  | loop => exact h.elim

/-- A loop is executed and takes its body. -/
theorem perform_loop [Evaluator] (fuel : Nat) (execute : Text → List Text → Macro Nat)
    (rest : List Text) (guard : Text) :
    perform fuel execute rest (.loop guard) =
      loopWhile execute guard (loopBody 1 rest).1 (fuel + 1) >>= fun _ ↦
        pure (loopBody 1 rest).2 := rfl

/-- A line is taken into the body unless it ends the loop. -/
theorem loopBody_cons (depth : Nat) (line : Text) (rest : List Text) :
    loopBody depth (line :: rest) =
      if opensLoop line then
        (line :: (loopBody (depth + 1) rest).1, (loopBody (depth + 1) rest).2 + 1)
      else if closesLoop line then
        if depth == 1 then ([], 1)
        else (line :: (loopBody (depth - 1) rest).1, (loopBody (depth - 1) rest).2 + 1)
      else (line :: (loopBody depth rest).1, (loopBody depth rest).2 + 1) := by
  rfl

/-- The lines of a loop are lines at hand. -/
theorem mem_of_mem_loopBody {depth : Nat} {rest : List Text} {line : Text}
    (h : line ∈ (loopBody depth rest).1) : line ∈ rest := by
  induction rest generalizing depth with
  | nil => exact h
  | cons first rest ih =>
    have hcons : ∀ depth, line ∈ first :: (loopBody depth rest).1 → line ∈ first :: rest := by
      intro depth h
      rcases List.mem_cons.mp h with rfl | h
      · exact List.mem_cons_self
      · exact List.mem_cons_of_mem _ (ih h)
    rw [loopBody_cons] at h
    split at h
    · exact hcons _ h
    · split at h
      · split at h
        · cases h
        · exact hcons _ h
      · exact hcons _ h

/-- Lines that do not end the loop belong to its body. -/
theorem loopBody_append {lines : List Text} {depth depth' : Nat}
    (h : depthAfter depth lines = some depth') (rest : List Text) :
    loopBody depth (lines ++ rest)
      = (lines ++ (loopBody depth' rest).1, (loopBody depth' rest).2 + lines.length) := by
  induction lines generalizing depth with
  | nil =>
    cases h
    rfl
  | cons line lines ih =>
    rw [depthAfter] at h
    rw [List.cons_append, loopBody_cons]
    cases ho : opensLoop line <;> cases hc : closesLoop line <;> by_cases h1 : depth = 1 <;>
      simp_all [Nat.add_assoc]

private theorem loopBody_le {lines : List Text} {depth : Nat} (h : depthAfter depth lines = none)
    (rest : List Text) : (loopBody depth (lines ++ rest)).2 ≤ lines.length := by
  induction lines generalizing depth with
  | nil => cases h
  | cons line lines ih =>
    rw [depthAfter] at h
    rw [List.cons_append, loopBody_cons]
    cases ho : opensLoop line <;> cases hc : closesLoop line <;> by_cases h1 : depth = 1 <;>
      simp_all

/-- The depth stays positive. -/
theorem depthAfter_pos {lines : List Text} {depth depth' : Nat} (hd : 0 < depth)
    (h : depthAfter depth lines = some depth') : 0 < depth' := by
  induction lines generalizing depth with
  | nil =>
    cases h
    exact hd
  | cons line lines ih =>
    rw [depthAfter] at h
    split at h
    · exact ih (by omega) h
    · split at h
      · split at h
        · cases h
        · next hne =>
          rw [beq_iff_eq] at hne
          exact ih (by omega) h
      · exact ih hd h

/-- The end line ends a loop that has no loop open inside, and only goes up one level otherwise. -/
theorem loopBody_endLine (depth : Nat) (rest : List Text) :
    loopBody depth (endLine :: rest) = if depth == 1 then ([], 1)
      else (endLine :: (loopBody (depth - 1) rest).1, (loopBody (depth - 1) rest).2 + 1) := by
  have ho : opensLoop endLine = false := rfl
  have hc : closesLoop endLine = true := rfl
  rw [loopBody_cons, ho, hc]
  rfl

private theorem loopBody_of_balanced {lines : List Text} (h : Balanced lines) (rest : List Text) :
    loopBody 1 (lines ++ endLine :: rest) = (lines, lines.length + 1) := by
  rw [loopBody_append h, loopBody_endLine]
  simp [Nat.add_comm]

/-- Only balanced lines are taken as the body whatever follows the end line. -/
theorem balanced_of_loopBody {lines : List Text}
    (h : ∀ rest, (loopBody 1 (lines ++ endLine :: rest)).2 = lines.length + 1) : Balanced lines := by
  cases hd : depthAfter 1 lines with
  | none =>
    have hle := loopBody_le hd [endLine]
    have heq := h []
    omega
  | some depth =>
    have hpos := depthAfter_pos Nat.one_pos hd
    by_cases h1 : depth = 1
    · rw [Balanced, hd, h1]
    · -- one level further in, an empty line after the end line is still taken
      have heq := h [[]]
      have hone : (loopBody (depth - 1) [[]]).2 = 1 := by
        have ho : opensLoop [] = false := rfl
        have hc : closesLoop [] = false := rfl
        rw [loopBody_cons, ho, hc]
        rfl
      rw [loopBody_append hd, loopBody_endLine, if_neg (by simpa using h1)] at heq
      simp only [hone] at heq
      omega

/-! ### Going through a body -/

/-- Executes lines one after the other, each with the ones after it and then `after` at hand. -/
def each (execute : Text → List Text → Macro Nat) (after : List Text) : List Text → Macro Unit
  | [] => pure ()
  | line :: rest => do
    let _ ← execute line (rest ++ after)
    each execute after rest

/-- Does work as long as the guard is equal to true, at most `fuel` times. -/
def asLongAs (guard : Text) (work : Macro Unit) : Nat → Macro Unit
  | 0 => throw .exhausted
  | fuel + 1 => do
    let v ← Macro.evaluate guard
    if v.equal (.bool true) then
      work
      asLongAs guard work fuel
    else pure ()

/-- Executes the line that opens a loop with its own lines and those after the loop at hand, `pass`
being one pass over the body. Defined words are replaced in the guard; they may also turn the line
into another command, which is then executed. -/
def openLoop (pass : Nat → Macro Unit) (guard : Text) (own after : List Text) : Nat → Macro Nat
  | 0 => throw .exhausted
  | fuel + 1 => do
    match Command.ofLine (← prepare (loopLine guard)) with
    | .loop guard => do
      asLongAs guard (pass fuel) (fuel + 1)
      pure (own.length + 1)
    | command => perform fuel (execute fuel) (own ++ endLine :: after) command

/-- Executes the commands of a body once each in order, `after` being the lines that follow. If
`again` is set, the lines of a nested block, the last one included, are executed once more after the
block, as if they stood in the body themselves. -/
def Body.pass (again : Bool) : Body → Nat → List Text → Macro Unit
  | .done, _, _ => pure ()
  | .line text rest, fuel, after => do
    let _ ← execute fuel text (rest.lines ++ after)
    rest.pass again fuel after
  | .block opener inner close rest, fuel, after => do
    let _ ← execute fuel opener (inner ++ close :: (rest.lines ++ after))
    if again then each (execute fuel) (rest.lines ++ after) (inner ++ [close])
    rest.pass again fuel after
  | .loop guard inner rest, fuel, after => do
    let _ ← openLoop (inner.pass again · []) guard inner.lines (rest.lines ++ after) fuel
    if again then
      inner.pass again fuel (endLine :: (rest.lines ++ after))
      each (execute fuel) (rest.lines ++ after) [endLine]
    rest.pass again fuel after

/-- Executes a loop over a body, `after` being the lines that follow it. -/
def Body.asLoop (again : Bool) (body : Body) (guard : Text) (after : List Text) : Nat → Macro Nat :=
  openLoop (body.pass again · []) guard body.lines after

private theorem each_append (execute : Text → List Text → Macro Nat)
    (after first second : List Text) :
    each execute after (first ++ second) =
      each execute (second ++ after) first >>= fun _ ↦ each execute after second := by
  induction first with
  | nil => simp [each]
  | cons line first ih => simp [each, ih, List.append_assoc]

private theorem bodyOnce_eq_each (execute : Text → List Text → Macro Nat) (lines : List Text) :
    bodyOnce execute lines = each execute [] lines := by
  induction lines with
  | nil => rfl
  | cons line rest ih => simp [bodyOnce, each, ih]

private theorem loopWhile_eq_asLongAs (execute : Text → List Text → Macro Nat) (guard : Text)
    (lines : List Text) (fuel : Nat) :
    loopWhile execute guard lines fuel = asLongAs guard (each execute [] lines) fuel := by
  induction fuel with
  | zero => rfl
  | succ fuel ih =>
    simp only [loopWhile, asLongAs, ih, bodyOnce_eq_each]

/-- A loop over balanced lines goes through every one of them in each pass. -/
theorem execute_loopLine {own : List Text} (h : Balanced own) (guard : Text) (rest : List Text)
    (fuel : Nat) :
    execute fuel (loopLine guard) (own ++ endLine :: rest) =
      openLoop (fun fuel ↦ each (execute fuel) [] own) guard own rest fuel := by
  cases fuel with
  | zero => rfl
  | succ fuel =>
    rw [execute, openLoop]
    refine congrArg _ (funext fun line ↦ ?_)
    split
    · next guard heq =>
      rw [heq, perform, loopBody_of_balanced h, ← loopWhile_eq_asLongAs]
    · rfl

/-- One pass that goes through nested blocks again, or one over a body without such blocks, executes
every line of the body. -/
theorem Body.pass_eq_each {again : Bool} {body : Body} (hb : body.Bracketed)
    (ha : again = true ∨ body.Flat) (fuel : Nat) (after : List Text) :
    body.pass again fuel after = each (execute fuel) after body.lines := by
  induction body generalizing fuel after with
  | done => rfl
  | line text rest ih => simp only [pass, lines, each, ih hb ha]
  | block opener inner close rest ih =>
    obtain rfl : again = true := ha.resolve_right id
    have hl : (Body.block opener inner close rest).lines
        = opener :: ((inner ++ [close]) ++ rest.lines) := by
      simp [lines]
    simp only [pass, if_true, ih hb (.inl rfl), hl, each, each_append, bind_assoc, pure_bind,
      List.append_assoc, List.cons_append, List.nil_append]
  | loop guard inner rest ihi ihr =>
    obtain rfl : again = true := ha.resolve_right id
    obtain ⟨hown, hi, hr⟩ := hb
    have hl : (Body.loop guard inner rest).lines
        = loopLine guard :: (inner.lines ++ ([endLine] ++ rest.lines)) := rfl
    rw [hl, each, List.append_assoc, List.append_assoc, List.singleton_append,
      execute_loopLine hown, each_append, each_append]
    simp only [pass, if_true, ihi hi (.inl rfl), ihr hr (.inl rfl), List.cons_append, List.nil_append]

/-- A loop goes through its body like `Body.pass` with every nested block repeated; without nested
blocks there is nothing to repeat. -/
theorem Body.execute_eq_asLoop {again : Bool} {body : Body} (hl : Balanced body.lines)
    (hb : body.Bracketed) (ha : again = true ∨ body.Flat) (guard : Text) (rest : List Text)
    (fuel : Nat) :
    execute fuel (loopLine guard) (body.lines ++ endLine :: rest)
      = body.asLoop again guard rest fuel := by
  have hp : (body.pass again · []) = fun fuel ↦ each (execute fuel) [] body.lines :=
    funext fun fuel ↦ Body.pass_eq_each hb ha fuel []
  rw [execute_loopLine hl, Body.asLoop, hp]

end Deskhand.Script
