import Deskhand.Proofs.BlockExtent
import Deskhand.Proofs.Margin

/-!
# Repeated lines

A line that asks for repetitions executes the last line again, with the default delay after each
time, and pauses once more for itself. So it does what copies of that line do in its place, but for
one pause, as long as the repeated line reads no lines after it.
-/

namespace Deskhand

private theorem bind_of_eq {ε σ α β : Type} {act act' : EStateM ε σ α} {next : α → EStateM ε σ β}
    {s : σ} (h : act s = act' s) :
    (act >>= next) s = (act' >>= next) s := by
  cases ha : act' s with
  | ok a s' => rw [bind_of_ok ha, bind_of_ok (h.trans ha)]
  | error e s' => rw [bind_of_error ha, bind_of_error (h.trans ha)]

/-- A property of the value and the state of work that ended well can be decided. -/
instance decidableOfOk {ε σ α : Type} {P : α → σ → Prop} [∀ a s, Decidable (P a s)] :
    (r : EStateM.Result ε σ α) → Decidable (∀ a s, r = .ok a s → P a s)
  | .ok a s => decidable_of_iff (P a s)
      ⟨fun h _ _ heq ↦ (EStateM.Result.ok.inj heq).1 ▸ (EStateM.Result.ok.inj heq).2 ▸ h,
        fun h ↦ h a s rfl⟩
  | .error _ _ => isTrue fun _ _ heq ↦ by cases heq

namespace Script

open Macro

/-! ### The lines of a script one after the other -/

/-- A line that is executed: something is left of it without its comment, and the script does not
take it for itself. -/
structure Executed (raw : Text) : Prop where
  nonempty : withoutComment raw ≠ []
  noRepeat : Text.startsWith (withoutComment raw) "REPEAT" = false
  noRestart : Text.startsWith (withoutComment raw) "RESTART_PAYLOAD" = false
  noStop : Text.startsWith (withoutComment raw) "STOP_PAYLOAD" = false

/-- A line that asks for a number of repetitions. -/
structure Repeats (raw : Text) (count : Int) : Prop where
  word : Text.startsWith (withoutComment raw) "REPEAT" = true
  count : Number.readInt ((withoutComment raw).drop 7) = .ok count

section Run

variable [Evaluator]

/-- The run of a script comes from a machine, the last line that was executed and the lines that are
left to the first ones given. -/
inductive Reaches (m' : Machine) (previous' : Text) (lines' : List Text) :
    Machine → Text → List Text → Prop where
  | refl : Reaches m' previous' lines' m' previous' lines'
  | blank {m : Machine} {previous raw : Text} {rest : List Text} (hraw : withoutComment raw = [])
      (h : Reaches m' previous' lines' m previous rest) :
      Reaches m' previous' lines' m previous (raw :: rest)
  | command {m m₁ m₂ : Machine} {previous raw : Text} {rest : List Text} {taken : Nat}
      (hraw : Executed raw) (hline : line (withoutComment raw) rest m = .ok taken m₁)
      (hpause : defaultPause m₁ = .ok () m₂)
      (h : Reaches m' previous' lines' m₂ (withoutComment raw) (rest.drop taken)) :
      Reaches m' previous' lines' m previous (raw :: rest)
  | again {m m₁ m₂ : Machine} {previous raw : Text} {rest : List Text} {taken : Nat} {count : Int}
      (hraw : Repeats raw count) (hlines : repeatLine previous count.toNat rest m = .ok taken m₁)
      (hpause : defaultPause m₁ = .ok () m₂)
      (h : Reaches m' previous' lines' m₂ previous (rest.drop taken)) :
      Reaches m' previous' lines' m previous (raw :: rest)

namespace Macro

variable {raw : Text} (previous : Text) (rest : List Text)

private theorem runLines_of_blank (h : withoutComment raw = []) :
    runLines previous (raw :: rest) = runLines previous rest := by
  rw [runLines, h]
  rfl

private theorem runLines_of_executed (h : Executed raw) :
    runLines previous (raw :: rest) = line (withoutComment raw) rest >>= fun taken ↦
      defaultPause >>= fun _ ↦ runLines (withoutComment raw) (rest.drop taken) :=
  runLines_cons rfl h.nonempty h.noRepeat h.noRestart h.noStop previous rest

/-- A line that asks for repetitions goes before those that the repeated line does not take. -/
theorem runLines_of_repeats {count : Int} (h : Repeats raw count) :
    runLines previous (raw :: rest) = repeatLine previous count.toNat rest >>= fun taken ↦
      defaultPause >>= fun _ ↦ runLines previous (rest.drop taken) := by
  have hempty : (withoutComment raw).isEmpty = false := by
    cases hnil : withoutComment raw with
    | nil =>
      have hword := h.word
      rw [hnil] at hword
      cases hword
    | cons c t => rfl
  rw [runLines]
  simp only [hempty, h.word, h.count, Bool.false_eq_true, if_false, if_true]
  rfl

end Macro

section Reaches

variable {m m' : Machine} {previous previous' : Text} {lines lines' : List Text}

private theorem Reaches.runLines_eq (h : Reaches m' previous' lines' m previous lines) :
    runLines previous lines m = runLines previous' lines' m' := by
  induction h with
  | refl => rfl
  | blank hraw _ ih => rw [runLines_of_blank _ _ hraw, ih]
  | command hraw hline hpause _ ih =>
    rw [runLines_of_executed _ _ hraw, bind_of_ok hline, bind_of_ok hpause, ih]
  | again hraw hlines hpause _ ih =>
    rw [runLines_of_repeats _ _ hraw, bind_of_ok hlines, bind_of_ok hpause, ih]

/-- The lines get fewer. -/
theorem Reaches.length_le (h : Reaches m' previous' lines' m previous lines) :
    lines'.length ≤ lines.length := by
  induction h with
  | refl => exact Nat.le_refl _
  | blank _ _ ih =>
    rw [List.length_cons]
    omega
  | command _ _ _ _ ih =>
    rw [List.length_drop] at ih
    rw [List.length_cons]
    omega
  | again _ _ _ _ ih =>
    rw [List.length_drop] at ih
    rw [List.length_cons]
    omega

end Reaches

/-! ### Lines that are not reached play no part -/

namespace Macro

variable {m m' : Machine} {text : Text} {before after : List Text} {taken : Nat}

private theorem line_append (h : line text (before ++ after) m = .ok taken m')
    (hle : taken ≤ before.length) (hne : after ≠ []) (more : List Text) :
    line text (before ++ more) m = .ok taken m' := by
  have hlt : taken < (before ++ after).length := by
    have hpos := List.length_pos_of_ne_nil hne
    rw [List.length_append]
    omega
  have hlocal : line text ((before ++ after).take taken ++ (before.drop taken ++ more)) m =
      .ok taken m' := execute_take_append h hlt _
  rwa [List.take_append_of_le_length hle, ← List.append_assoc, List.take_append_drop] at hlocal

/-- So does a line that is repeated. -/
theorem repeatLine_append {count : Nat}
    (h : repeatLine text count (before ++ after) m = .ok taken m') (hle : taken ≤ before.length)
    (hne : after ≠ []) (more : List Text) :
    repeatLine text count (before ++ more) m = .ok taken m' := by
  induction count generalizing m before taken with
  | zero => exact h
  | succ count ih =>
    rw [repeatLine] at h ⊢
    obtain ⟨taken₁, m₁, hline, h⟩ := exists_of_bind_ok h
    obtain ⟨_, m₂, hpause, h⟩ := exists_of_bind_ok h
    obtain ⟨taken₂, m₃, hrest, h⟩ := exists_of_bind_ok h
    cases h
    have hle₁ : taken₁ ≤ before.length := by omega
    rw [List.drop_append_of_le_length hle₁] at hrest
    have hmore := ih hrest (by rw [List.length_drop]; omega)
    rw [← List.drop_append_of_le_length hle₁] at hmore
    rw [bind_of_ok (line_append hline hle₁ hne more), bind_of_ok hpause, bind_of_ok hmore]
    rfl

end Macro

/-- A line is reached in the same way whatever stands from that line on. -/
theorem Reaches.append {m m' : Machine} {previous previous' : Text} {lines before after : List Text}
    (h : Reaches m' previous' after m previous lines) (hlines : lines = before ++ after)
    (hne : after ≠ []) (more : List Text) :
    Reaches m' previous' more m previous (before ++ more) := by
  -- A line that was passed stands before the one that is reached: the lines get fewer.
  have hsplit : ∀ {raw : Text} {rest before : List Text}, raw :: rest = before ++ after →
      after.length ≤ rest.length → ∃ tail, before = raw :: tail ∧ rest = tail ++ after := by
    intro raw rest before hcons hle
    cases before with
    | nil =>
      rw [List.nil_append] at hcons
      rw [← hcons, List.length_cons] at hle
      omega
    | cons first tail =>
      cases hcons
      exact ⟨tail, rfl, rfl⟩
  have hfew : ∀ {tail : List Text} {taken : Nat},
      after.length ≤ (tail ++ after).length - taken → taken ≤ tail.length := by
    intro tail taken hle
    have hpos := List.length_pos_of_ne_nil hne
    rw [List.length_append] at hle
    omega
  induction h generalizing before with
  | refl =>
    obtain rfl : before = [] := List.append_left_eq_self.mp hlines.symm
    exact .refl
  | blank hraw h ih =>
    obtain ⟨tail, rfl, hrest⟩ := hsplit hlines h.length_le
    exact .blank hraw (ih hrest)
  | command hraw hline hpause h ih =>
    have hle := h.length_le
    rw [List.length_drop] at hle
    obtain ⟨tail, rfl, rfl⟩ := hsplit hlines (by omega)
    have htaken := hfew hle
    rw [List.cons_append]
    refine .command hraw (line_append hline htaken hne more) hpause ?_
    rw [List.drop_append_of_le_length htaken]
    exact ih (List.drop_append_of_le_length htaken)
  | again hraw hagain hpause h ih =>
    have hle := h.length_le
    rw [List.length_drop] at hle
    obtain ⟨tail, rfl, rfl⟩ := hsplit hlines (by omega)
    have htaken := hfew hle
    rw [List.cons_append]
    refine .again hraw (repeatLine_append hagain htaken hne more) hpause ?_
    rw [List.drop_append_of_le_length htaken]
    exact ih (List.drop_append_of_le_length htaken)

end Run

/-! ### A line executed a number of times -/

section Once

variable [Evaluator]

/-- Executes a line that reads no further ones, and pauses for the default delay. -/
def once (text : Text) : Macro Unit := do
  let _ ← line text []
  defaultPause

/-- Executes a line that reads no further ones a number of times. -/
def times (text : Text) : Nat → Macro Unit
  | 0 => pure ()
  | count + 1 => do
    once text
    times text count

end Once

/-- The line is understood as a command that reads no further lines. -/
def Machine.ReadsNone (m : Machine) (text : Text) : Prop :=
  ∀ understood m', prepare text m = .ok understood m' → ¬ (Command.ofLine understood).Reads

/-- The line reads no further lines as often as it is executed, up to the given number. -/
def ReadsNoneEachTime [Evaluator] (text : Text) : Nat → Machine → Prop
  | 0, _ => True
  | count + 1, m => m.ReadsNone text ∧
      ∀ done m', once text m = .ok done m' → ReadsNoneEachTime text count m'

instance Command.Reads.decidable : (command : Command) → Decidable command.Reads
  | .skipBlock | .typeBlock _ | .function (some _) | .loop _ => isTrue trivial
  | .ignore | .hold _ | .release _ | .delay _ | .type .. | .print _ | .defaultDelay _ | .assign ..
  | .badDeclaration _ | .badAssignment _ | .define .. | .function none | .random .. | .releaseAll
  | .other _ => isFalse id

instance Machine.ReadsNone.decidable (m : Machine) (text : Text) : Decidable (m.ReadsNone text) :=
  inferInstanceAs (Decidable (∀ understood m', prepare text m = .ok understood m' →
    ¬ (Command.ofLine understood).Reads))

instance ReadsNoneEachTime.decidable [Evaluator] (text : Text) : (count : Nat) → (m : Machine) →
    Decidable (ReadsNoneEachTime text count m)
  | 0, _ => inferInstanceAs (Decidable True)
  | count + 1, m =>
    have := ReadsNoneEachTime.decidable text count
    inferInstanceAs (Decidable (m.ReadsNone text ∧
      ∀ done m', once text m = .ok done m' → ReadsNoneEachTime text count m'))

/-! ### The pause after a line -/

section Pause

variable {m : Machine}

private theorem defaultPause_of_delay {length : Int}
    (h : Pause.ofDelay m.defaultDelay = .ok length) :
    defaultPause m = onMedia (Act.emit (.pause length)) m := by
  rw [defaultPause, bind_of_ok (run_get m), h]
  rfl

private theorem defaultPause_without_room {length : Int}
    (h : Pause.ofDelay m.defaultDelay = .ok length) (hroom : m.trace.room = 0) :
    defaultPause m = .error .exhausted m := by
  rw [defaultPause_of_delay h]
  unfold onMedia Act.emit
  simp only [hroom]
  rfl

private theorem defaultPause_with_room {length : Int} {room : Nat}
    (h : Pause.ofDelay m.defaultDelay = .ok length) (hroom : m.trace.room = room + 1) :
    defaultPause m =
      .ok () (m.placed (m.trace.events.push (.pause length)) room m.random.draws) := by
  rw [defaultPause_of_delay h]
  unfold onMedia Act.emit
  simp only [hroom]
  rfl

/-- A delay that was waited for can be waited for again. -/
theorem exists_delay_of_defaultPause {m' : Machine} (h : defaultPause m = .ok () m') :
    ∃ length, Pause.ofDelay m'.defaultDelay = .ok length := by
  cases hlength : Pause.ofDelay m.defaultDelay with
  | error fault =>
    rw [defaultPause, bind_of_ok (run_get m), hlength] at h
    cases h
  | ok length =>
    cases hroom : m.trace.room with
    | zero =>
      rw [defaultPause_without_room hlength hroom] at h
      cases h
    | succ room =>
      rw [defaultPause_with_room hlength hroom] at h
      cases h
      exact ⟨length, hlength⟩

end Pause

/-! ### Executions one by one -/

section Times

variable [Evaluator] {m : Machine} {text : Text} {count : Nat}

/-- A line that reads no further ones takes none. -/
theorem Machine.ReadsNone.taken_eq_zero (h : m.ReadsNone text) {rest : List Text} {taken : Nat}
    {m' : Machine} (hline : line text rest m = .ok taken m') : taken = 0 := by
  obtain ⟨fuel, understood, m₁, -, hprepare, hperform⟩ := exists_of_execute_ok hline
  have hreads := h understood m₁ hprepare
  cases hcommand : Command.ofLine understood with
  | skipBlock => exact absurd (hcommand ▸ trivial) hreads
  | typeBlock enter => exact absurd (hcommand ▸ trivial) hreads
  | loop guard => exact absurd (hcommand ▸ trivial) hreads
  | function name =>
    cases name with
    | none =>
      rw [hcommand] at hperform
      cases hperform
    | some name => exact absurd (hcommand ▸ trivial) hreads
  | _ => exact Macro.taken_eq_zero (by rw [hcommand]; rfl) hperform

private theorem Machine.ReadsNone.bind_line {β : Type} (h : m.ReadsNone text) (rest : List Text)
    (next : Nat → Macro β) :
    (line text rest >>= fun taken ↦ defaultPause >>= fun _ ↦ next taken) m =
      (once text >>= fun _ ↦ next 0) m := by
  have hrest : line text rest m = line text [] m := execute_of_not_reads h _ rest []
  rw [once, bind_assoc]
  cases hline : line text [] m with
  | error halt m' => rw [bind_of_error hline, bind_of_error (hrest.trans hline)]
  | ok taken m' =>
    rw [bind_of_ok hline, bind_of_ok (hrest.trans hline), h.taken_eq_zero hline]

private theorem bind_times_succ {β : Type} (next : Macro β) :
    (times text (count + 1) >>= fun _ ↦ next) =
      once text >>= fun _ ↦ times text count >>= fun _ ↦ next := by
  rw [times, bind_assoc]

private theorem bind_once_congr {β : Type} {next next' : Macro β}
    (h : ∀ done m', once text m = .ok done m' → next m' = next' m') :
    (once text >>= fun _ ↦ next) m = (once text >>= fun _ ↦ next') m := by
  cases honce : once text m with
  | error halt m' => rw [bind_of_error honce, bind_of_error honce]
  | ok done m' => rw [bind_of_ok honce, bind_of_ok honce, h done m' honce]

private theorem repeatLine_eq_times (h : ReadsNoneEachTime text count m) (rest : List Text) :
    repeatLine text count rest m = (times text count >>= fun _ ↦ pure 0) m := by
  induction count generalizing m with
  | zero => rfl
  | succ count ih =>
    rw [repeatLine, h.1.bind_line rest fun taken ↦
      repeatLine text count (rest.drop taken) >>= fun more ↦ pure (taken + more), bind_times_succ]
    refine bind_once_congr fun done m' honce ↦ ?_
    rw [List.drop_zero, bind_of_eq (ih (h.2 done m' honce)), bind_assoc]
    rfl

/-- Copies of such a line are executed one by one. -/
theorem runLines_replicate {raw : Text} (hraw : Executed raw)
    (h : ReadsNoneEachTime (withoutComment raw) count m) (rest : List Text) :
    runLines (withoutComment raw) (List.replicate count raw ++ rest) m =
      (times (withoutComment raw) count >>= fun _ ↦ runLines (withoutComment raw) rest) m := by
  induction count generalizing m with
  | zero => rfl
  | succ count ih =>
    rw [List.replicate_succ, List.cons_append, runLines_of_executed _ _ hraw, h.1.bind_line,
      bind_times_succ]
    exact bind_once_congr fun done m' honce ↦ ih (h.2 done m' honce)

/-- After a line was executed, the default delay can be waited for again. -/
theorem exists_delay_of_times {m' : Machine} (h : times text (count + 1) m = .ok () m') :
    ∃ length, Pause.ofDelay m'.defaultDelay = .ok length := by
  induction count generalizing m with
  | zero =>
    obtain ⟨_, m₁, honce, hrest⟩ := exists_of_bind_ok h
    obtain ⟨_, m₂, _, hpause⟩ := exists_of_bind_ok honce
    cases hrest
    exact exists_delay_of_defaultPause hpause
  | succ count ih =>
    obtain ⟨_, m₁, _, hrest⟩ := exists_of_bind_ok h
    exact ih hrest

end Times

/-! ### The repeated line and its copies -/

section Unrolled

variable [Evaluator] {m : Machine} {c r previous : Text} {blanks rest : List Text} {n : Nat}

private theorem runLines_blanks (h : ∀ raw ∈ blanks, withoutComment raw = []) :
    runLines previous (blanks ++ rest) = runLines previous rest := by
  induction blanks with
  | nil => rfl
  | cons raw blanks ih =>
    rw [List.cons_append, runLines_of_blank _ _ (h raw List.mem_cons_self)]
    exact ih fun raw' hraw' ↦ h raw' (List.mem_cons_of_mem raw hraw')

variable (hblanks : ∀ raw ∈ blanks, withoutComment raw = []) (hc : Executed c)
  (hsingle : ReadsNoneEachTime (withoutComment c) (n + 1) m)

include hblanks hc hsingle

private theorem runLines_repeated (hr : Repeats r n) :
    runLines previous (c :: (blanks ++ r :: rest)) m =
      (times (withoutComment c) (n + 1) >>= fun _ ↦ defaultPause >>= fun _ ↦
        runLines (withoutComment c) rest) m := by
  rw [runLines_of_executed _ _ hc, hsingle.1.bind_line, bind_times_succ]
  refine bind_once_congr fun done m' honce ↦ ?_
  rw [List.drop_zero, runLines_blanks hblanks, runLines_of_repeats _ _ hr, Int.toNat_natCast,
    bind_of_eq (repeatLine_eq_times (hsingle.2 done m' honce) rest), bind_assoc]
  rfl

private theorem runLines_copied :
    runLines previous (c :: (blanks ++ (List.replicate n c ++ rest))) m =
      (times (withoutComment c) (n + 1) >>= fun _ ↦ runLines (withoutComment c) rest) m := by
  rw [runLines_of_executed _ _ hc, hsingle.1.bind_line, bind_times_succ]
  refine bind_once_congr fun done m' honce ↦ ?_
  rw [List.drop_zero, runLines_blanks hblanks, runLines_replicate hc (hsingle.2 done m' honce)]

end Unrolled

/-- Two runs end alike, with the same allowance left, but the first has one event more than the second,
behind the events that both have so far. -/
inductive OneMore {α : Type} (before : Array Event) (extra : Event) :
    EStateM.Result (Halt Fault) Machine α → EStateM.Result (Halt Fault) Machine α → Prop where
  | ok (a : α) (m : Machine) (after : Array Event) (room draws : Nat) : OneMore before extra
      (.ok a (m.placed (before.push extra ++ after) room draws))
      (.ok a (m.placed (before ++ after) room draws))
  | error (halt : Halt Fault) (m : Machine) (after : Array Event) (room draws : Nat) :
      OneMore before extra
        (.error halt (m.placed (before.push extra ++ after) room draws))
        (.error halt (m.placed (before ++ after) room draws))

/-- The machine with room for one event more. -/
def Machine.roomier (m : Machine) : Machine :=
  m.placed m.trace.events (m.trace.room + 1) m.random.draws

section OneMore

variable [Evaluator] [Evaluator.Steady]

omit [Evaluator] [Evaluator.Steady] in
/-- Work that takes no notice of earlier events does the same after one event more. -/
theorem oneMore_placed {α : Type} {act : Macro α}
    (h : ∀ w : Margin, Follows w.Spare (Machine.widen w) act act) (m : Machine) (before : Array Event)
    (extra : Event) (room draws : Nat) : OneMore before extra
      (act (m.placed (before.push extra) room draws)) (act (m.placed before room draws)) := by
  have hspare : ∀ earlier : Array Event, ¬ Margin.Spare ⟨earlier, 0, 0⟩ := by simp [Margin.Spare]
  have hfirst := alike_placed h (before.push extra) 0 0 m room draws
  have hsecond := alike_placed h before 0 0 m room draws
  rw [Nat.add_zero, Nat.add_zero] at hfirst hsecond
  generalize act (m.placed #[] room draws) = r at hfirst hsecond
  generalize act (m.placed (before.push extra) room draws) = r₁ at hfirst
  generalize act (m.placed before room draws) = r₂ at hsecond
  cases hfirst with
  | ok a m' =>
    cases hsecond
    exact .ok a m'.state m'.trace.events m'.trace.room m'.random.draws
  | failed fault m' =>
    cases hsecond
    exact .error _ m'.state m'.trace.events m'.trace.room m'.random.draws
  | exhausted m' r₁ he =>
    cases hsecond with
    | exhausted _ _ he' =>
      rw [he.resolve_left (hspare _), he'.resolve_left (hspare _)]
      exact .error _ m'.state m'.trace.events m'.trace.room m'.random.draws

private theorem oneMore_defaultPause {m : Machine} {length : Int} (previous : Text)
    (lines : List Text) (hlength : Pause.ofDelay m.defaultDelay = .ok length) :
    OneMore m.trace.events (.pause length)
      ((defaultPause >>= fun _ ↦ runLines previous lines) m.roomier) (runLines previous lines m) := by
  rw [bind_of_ok (defaultPause_with_room (m := m.roomier) hlength rfl)]
  exact oneMore_placed (fun w ↦ (twoRuns_widen w).runLines trivial fun _ _ ↦ trivial) m
    m.trace.events (.pause length) m.trace.room m.random.draws

omit [Evaluator] [Evaluator.Steady] in
private theorem ok_roomier {α : Type} {act : Macro α} {m m' : Machine} {a : α}
    (h : ∀ w : Margin, Follows w.Spare (Machine.widen w) act act) (hrun : act m = .ok a m') :
    act m.roomier = .ok a m'.roomier := by
  have hwide : ∀ m : Machine, m.widen ⟨#[], 1, 0⟩ = m.roomier := fun m ↦ by
    simp [Machine.widen, Trace.widen, Machine.roomier, Machine.placed]
  have hm := (h ⟨#[], 1, 0⟩).alike m
  rw [hrun, hwide] at hm
  generalize act m.roomier = r at hm
  cases hm with
  | ok a m' => rw [hwide]

private theorem ok_line_roomier {m m' : Machine} {text : Text} {rest : List Text} {taken : Nat}
    (h : line text rest m = .ok taken m') : line text rest m.roomier = .ok taken m'.roomier :=
  ok_roomier (fun w ↦ (twoRuns_widen w).line trivial fun _ _ ↦ trivial) h

omit [Evaluator] [Evaluator.Steady] in
private theorem ok_pause_roomier {m m' : Machine} (h : defaultPause m = .ok () m') :
    defaultPause m.roomier = .ok () m'.roomier :=
  ok_roomier (fun _ ↦ follows_defaultPause) h

private theorem ok_repeatLine_roomier {m m' : Machine} {text : Text} {count taken : Nat}
    {rest : List Text} (h : repeatLine text count rest m = .ok taken m') :
    repeatLine text count rest m.roomier = .ok taken m'.roomier := by
  induction count generalizing m rest taken with
  | zero =>
    cases h
    rfl
  | succ count ih =>
    rw [repeatLine] at h ⊢
    obtain ⟨taken₁, m₁, hline, h⟩ := exists_of_bind_ok h
    obtain ⟨_, m₂, hpause, h⟩ := exists_of_bind_ok h
    obtain ⟨taken₂, m₃, hrest, h⟩ := exists_of_bind_ok h
    cases h
    rw [bind_of_ok (ok_line_roomier hline), bind_of_ok (ok_pause_roomier hpause),
      bind_of_ok (ih hrest)]
    rfl

private theorem Reaches.roomier {m m' : Machine} {previous previous' : Text}
    {lines lines' : List Text} (h : Reaches m' previous' lines' m previous lines) :
    Reaches m'.roomier previous' lines' m.roomier previous lines := by
  induction h with
  | refl => exact .refl
  | blank hraw _ ih => exact .blank hraw ih
  | command hraw hline hpause _ ih =>
    exact .command hraw (ok_line_roomier hline) (ok_pause_roomier hpause) ih
  | again hraw hlines hpause _ ih =>
    exact .again hraw (ok_repeatLine_roomier hlines) (ok_pause_roomier hpause) ih

private theorem ok_once_roomier {m m' : Machine} {text : Text} (h : once text m = .ok () m') :
    once text m.roomier = .ok () m'.roomier := by
  obtain ⟨taken, m₁, hline, hpause⟩ := exists_of_bind_ok h
  rw [once, bind_of_ok (ok_line_roomier hline)]
  exact ok_pause_roomier hpause

/-- Executions that get through do so with more room, and read no more lines. -/
theorem times_roomier {m m' : Machine} {text : Text} {count : Nat}
    (h : times text count m = .ok () m') (hsingle : ReadsNoneEachTime text count m) :
    times text count m.roomier = .ok () m'.roomier ∧ ReadsNoneEachTime text count m.roomier := by
  induction count generalizing m with
  | zero =>
    cases h
    exact ⟨rfl, trivial⟩
  | succ count ih =>
    obtain ⟨_, m₁, honce, hrest⟩ := exists_of_bind_ok h
    obtain ⟨hmore, heach⟩ := ih hrest (hsingle.2 () m₁ honce)
    refine ⟨by rw [times, bind_of_ok (ok_once_roomier honce), hmore], ?_, fun _ m₂ hm₂ ↦ ?_⟩
    · intro understood m₂ hprepare
      obtain ⟨taken, m₃, hline, -⟩ := exists_of_bind_ok honce
      obtain ⟨fuel, understood', m₄, -, hprepare', -⟩ := exists_of_execute_ok hline
      have hwide := ok_roomier (fun _ ↦ follows_parts.prepare follows_bound follows_drawBelow
        follows_replaceDefines text) hprepare'
      cases hwide.symm.trans hprepare
      exact hsingle.1 _ _ hprepare'
    · cases (ok_once_roomier honce).symm.trans hm₂
      exact heach

omit [Evaluator.Steady] in
private theorem script_of_ok {t : Text} {m m' : Machine}
    (h : runLines [] (Text.lines t) m = .ok false m') : script t m = .ok () m' := by
  rw [script, bind_of_ok (run_get m), runAgain, bind_of_ok h]
  rfl

omit [Evaluator.Steady] in
private theorem script_of_error {t : Text} {m m' : Machine} {halt : Halt Fault}
    (h : runLines [] (Text.lines t) m = .error halt m') : script t m = .error halt m' := by
  rw [script, bind_of_ok (run_get m), runAgain, bind_of_error h]

omit [Evaluator.Steady] in
/-- Scripts whose lines end alike but for one event do so too, unless they are restarted. -/
theorem oneMore_script {before : Array Event} {extra : Event} {t t' : Text} {m m' : Machine}
    (h : OneMore before extra (runLines [] (Text.lines t) m) (runLines [] (Text.lines t') m'))
    (hrestart : ∀ m'', runLines [] (Text.lines t') m' ≠ .ok true m'') :
    OneMore before extra (script t m) (script t' m') := by
  obtain ⟨r, hr⟩ : ∃ r, runLines [] (Text.lines t) m = r := ⟨_, rfl⟩
  obtain ⟨r', hr'⟩ : ∃ r', runLines [] (Text.lines t') m' = r' := ⟨_, rfl⟩
  rw [hr, hr'] at h
  cases h with
  | ok again m' after room draws =>
    cases again with
    | false =>
      rw [script_of_ok hr, script_of_ok hr']
      exact .ok () m' after room draws
    | true => exact absurd hr' (hrestart _)
  | error halt m' after room draws =>
    rw [script_of_error hr, script_of_error hr']
    exact .error halt m' after room draws

/-- A line that asks for repetitions does what as many copies of the repeated line do in its place,
and one pause more (`run_ducky_script_from_string`). If the executions of the line do not get
through, both scripts end there, in the same way. If they do, the script runs with room for the pause
as the copies run without it: both end with a value, with the same fault or for want of allowance, in
states that differ in the pause behind the executions alone. -/
theorem script_repeat_unrolls {m m₁ : Machine} {t t' c r previous : Text}
    {before blanks rest : List Text} {n : Nat}
    (ht : Text.lines t = before ++ c :: (blanks ++ r :: rest))
    (ht' : Text.lines t' = before ++ c :: (blanks ++ (List.replicate n c ++ rest)))
    (hblanks : ∀ raw ∈ blanks, withoutComment raw = []) (hc : Executed c) (hr : Repeats r n)
    (hreach : Reaches m₁ previous (c :: (blanks ++ r :: rest)) m [] (Text.lines t))
    (hsingle : ReadsNoneEachTime (withoutComment c) (n + 1) m₁)
    (hrestart : ∀ m', runLines [] (Text.lines t') m ≠ .ok true m') :
    (∃ halt m', times (withoutComment c) (n + 1) m₁ = .error halt m' ∧
      script t m = .error halt m' ∧ script t' m = .error halt m') ∨
    ∃ m₂ length, times (withoutComment c) (n + 1) m₁ = .ok () m₂ ∧
      Pause.ofDelay m₂.defaultDelay = .ok length ∧
      OneMore m₂.trace.events (.pause length) (script t m.roomier) (script t' m) := by
  have hcopied := hreach.append ht (List.cons_ne_nil _ _)
    (c :: (blanks ++ (List.replicate n c ++ rest)))
  rw [← ht'] at hcopied
  have hsecond := hcopied.runLines_eq.trans (runLines_copied hblanks hc hsingle)
  cases htimes : times (withoutComment c) (n + 1) m₁ with
  | error halt m' =>
    have hfirst := hreach.runLines_eq.trans (runLines_repeated hblanks hc hsingle hr)
    rw [bind_of_error htimes] at hfirst hsecond
    exact .inl ⟨halt, m', rfl, script_of_error hfirst, script_of_error hsecond⟩
  | ok done m₂ =>
    obtain ⟨hroomier, hsingle'⟩ := times_roomier htimes hsingle
    have hfirst := hreach.roomier.runLines_eq.trans (runLines_repeated hblanks hc hsingle' hr)
    rw [bind_of_ok hroomier] at hfirst
    rw [bind_of_ok htimes] at hsecond
    obtain ⟨length, hlength⟩ := exists_delay_of_times htimes
    have hmore := oneMore_defaultPause (withoutComment c) rest hlength
    rw [← hfirst, ← hsecond] at hmore
    exact .inr ⟨m₂, length, rfl, hlength, oneMore_script hmore hrestart⟩

end OneMore

/-- A line that counts up. -/
def countLine : Text := "VAR $_RANDOM_MIN = $_RANDOM_MIN + 1 # one more"

/-- A line that asks for two more. -/
def countAgain : Text := "REPEAT 2"

/-- A line that types the number. -/
def typeCount : Text := "STRING $_RANDOM_MIN"

/-- A script that counts up, goes on with the given lines and types the number. -/
def countScript (repeated : List Text) : Text :=
  Text.join "\n" ("# counting" :: countLine :: "# and again" :: (repeated ++ [typeCount]))

/-- A line that counts up is repeated twice: the number is typed, and the run with copies of the
line differs in one pause. -/
theorem script_repeat_unrolls_counting :
    reportCount? (script (countScript [countAgain]) (Machine.fresh 1 20 20)) = some 2 ∧
      ∃ before length, OneMore before (.pause length)
        (script (countScript [countAgain]) (Machine.fresh 1 21 20))
        (script (countScript [countLine, countLine]) (Machine.fresh 1 20 20)) := by
  have hcounted : reportCount? (script (countScript [countAgain]) (Machine.fresh 1 20 20)) =
      some 2 := by decide +kernel
  have ht : Text.lines (countScript [countAgain]) = (["# counting"] : List Text) ++
      countLine :: ((["# and again"] : List Text) ++ countAgain :: [typeCount]) := by
    decide +kernel
  have ht' : Text.lines (countScript [countLine, countLine]) = (["# counting"] : List Text) ++
      countLine :: ((["# and again"] : List Text) ++
        (List.replicate 2 countLine ++ [typeCount])) := by
    decide +kernel
  have hc : Executed countLine := ⟨by decide +kernel, by decide +kernel, by decide +kernel,
    by decide +kernel⟩
  have hr : Repeats countAgain (2 : Nat) := ⟨by decide +kernel, by decide +kernel⟩
  have hreach : Reaches (Machine.fresh 1 20 20) []
      (countLine :: ((["# and again"] : List Text) ++ countAgain :: [typeCount]))
      (Machine.fresh 1 20 20) [] (Text.lines (countScript [countAgain])) := by
    rw [ht]
    exact .blank (by decide +kernel) .refl
  have hsingle : ReadsNoneEachTime (withoutComment countLine) 3 (Machine.fresh 1 20 20) := by
    decide +kernel
  have hend : resultValue? (runLines [] (Text.lines (countScript [countLine, countLine]))
      (Machine.fresh 1 20 20)) = some false := by decide +kernel
  have hrestart : ∀ m', runLines [] (Text.lines (countScript [countLine, countLine]))
      (Machine.fresh 1 20 20) ≠ .ok true m' := by
    intro m' h
    rw [h] at hend
    cases hend
  refine ⟨hcounted, ?_⟩
  rcases script_repeat_unrolls ht ht' (by decide +kernel) hc hr hreach hsingle hrestart with
    ⟨halt, m', -, hscript, -⟩ | ⟨m₂, length, -, -, hmore⟩
  · rw [hscript] at hcounted
    cases hcounted
  · exact ⟨_, length, hmore⟩

end Script

end Deskhand
