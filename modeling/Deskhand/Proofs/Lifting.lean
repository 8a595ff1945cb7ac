import Deskhand.Proofs.LoopBlocks
import Deskhand.Proofs.Parts
import Deskhand.Proofs.Watch
import Mathlib.Data.List.Forall2

/-!
# From steps to runs

What is to be known of a run, or of two runs side by side, is proved here once for all relations. A
`Comparison` relates the work of a watched run to the work of another run, which may have other lines
and other fuel. If it holds of the single steps (`Comparison.Steps`), it holds of the execution of
lines, and with what a script does around its lines (`Comparison.Scripts`) of scripts and of sequences
of jobs (`Comparison.Jobs`).

Two runs of the same lines (`TwoRuns`) are compared without the notes, and what concerns one run alone
(`OneRun`) ignores the other. That a watched run without its notes is the run is a comparison too.
-/

namespace Deskhand.Script

open Watched (unseen note marked erase)

/-- What is compared: watched work with other work, work that begins with a command, amounts of fuel,
lines before and after they are prepared, and the lines after a line. -/
structure Comparison where
  Holds {α : Type} (w : Watched α) (act : Macro α) : Prop
  Begins {α : Type} (w : Watched α) (act : Macro α) : Prop
  Fuels (fuel fuel' : Nat) : Prop
  Lines (line line' : Text) : Prop
  Prepared (line line' : Text) : Prop
  Rests (rest rest' : List Text) : Prop

namespace Comparison

variable [Evaluator]

/-- The comparison holds of the steps of which the execution of lines is made. -/
structure Steps (c : Comparison) : Prop where
  pure {α : Type} (a : α) : c.Holds (pure a : Watched α) (pure a)
  bind {α β : Type} {w : Watched α} {act : Macro α} {next : α → Watched β} {next' : α → Macro β}
    (hw : c.Holds w act) (hn : ∀ a, c.Holds (next a) (next' a)) :
    c.Holds (w >>= next) (act >>= next')
  marked {w : Watched Nat} {act : Macro Nat} (hw : c.Holds w act) : c.Holds (marked w) act
  exhausted {α : Type} : c.Holds (unseen (throw .exhausted : Macro α)) (throw .exhausted)
  spare {α : Type} {fuel : Nat} (hf : c.Fuels 0 (fuel + 1)) (act : Macro α) :
    c.Holds (unseen (throw .exhausted)) act
  pred {fuel fuel' : Nat} (hf : c.Fuels (fuel + 1) fuel') : ∃ k, fuel' = k + 1 ∧ c.Fuels fuel k
  succ {fuel fuel' : Nat} (hf : c.Fuels fuel fuel') : c.Fuels (fuel + 1) (fuel' + 1)
  rests {rest rest' : List Text} (h : List.Forall₂ c.Lines rest rest') : c.Rests rest rest'
  evaluate (t : Text) : c.Holds (unseen (Macro.evaluate t)) (Macro.evaluate t)
  /-- Preparing a line and going on with its command. -/
  prepare {fuel fuel' : Nat} {text text' : Text} {rest rest' : List Text}
    (ht : c.Lines text text')
    (hp : ∀ line line', c.Prepared line line' → c.Begins
      (do
        note (.began (.ofLine line))
        Watched.perform fuel (Watched.execute fuel) rest (.ofLine line))
      (Macro.perform fuel' (Macro.execute fuel') rest' (.ofLine line'))) :
    c.Holds
      (do
        let line ← unseen (Macro.prepare text)
        note (.began (.ofLine line))
        Watched.perform fuel (Watched.execute fuel) rest (.ofLine line))
      (do
        let line ← Macro.prepare text'
        Macro.perform fuel' (Macro.execute fuel') rest' (.ofLine line))
  /-- A command that executes no further lines. -/
  single {line line' : Text} {rest rest' : List Text} (hp : c.Prepared line line')
    (hs : (Command.ofLine line).IsSingle) (hr : c.Rests rest rest') (fuel fuel' : Nat)
    (execute : Text → List Text → Macro Nat) : c.Begins
      (do
        note (.began (.ofLine line))
        unseen (Macro.perform fuel (fun _ _ ↦ Pure.pure 0) rest (.ofLine line)))
      (Macro.perform fuel' execute rest' (.ofLine line'))
  /-- A loop is a loop with the same guard over the same number of lines. -/
  loop {line line' guard : Text} (hp : c.Prepared line line')
    (hl : Command.ofLine line = .loop guard) :
    Command.ofLine line' = .loop guard ∧ ∀ rest rest', c.Rests rest rest' →
      (Macro.loopBody 1 rest').2 = (Macro.loopBody 1 rest).2 ∧
        List.Forall₂ c.Lines (Macro.loopBody 1 rest).1 (Macro.loopBody 1 rest').1
  begins {w : Watched Nat} {act : Macro Nat} (guard : Text) (hw : c.Holds w act) :
    c.Begins (do note (.began (.loop guard)); w) act
  /-- A call, or a line of keys. -/
  other {line line' name : Text} {rest rest' : List Text} {fuel fuel' : Nat}
    (hp : c.Prepared line line') (hl : Command.ofLine line = .other name)
    (hc : ∀ body body', List.Forall₂ c.Lines body body' →
      c.Holds (Watched.callLines (Watched.execute fuel) name body)
        (Macro.callLines (Macro.execute fuel') name body')) : c.Begins
      (do note (.began (.other name)); Watched.perform fuel (Watched.execute fuel) rest (.other name))
      (Macro.perform fuel' (Macro.execute fuel') rest' (.ofLine line'))
  /-- The lines that a function has when one of its lines is executed. -/
  body {name line' : Text} {rest' : List Text} {fuel' : Nat} {w : List Text → Watched Unit}
    (hw : ∀ body body', c.Rests body body' → c.Holds (w body)
      (Macro.execute fuel' line' body' >>= fun _ ↦
        Macro.callLines (Macro.execute fuel') name rest')) : c.Holds
      (do let m ← unseen get; w ((m.functions.get? name).getD []))
      (Macro.callLines (Macro.execute fuel') name (line' :: rest'))
  /-- The fuel that the draws give. -/
  draws {text text' : Text} {rest rest' : List Text}
    (hx : ∀ fuel fuel', c.Fuels fuel fuel' →
      c.Holds (Watched.execute fuel text rest) (Macro.execute fuel' text' rest')) :
    c.Holds (Watched.line text rest) (Macro.line text' rest')

namespace Steps

variable {c : Comparison} (h : c.Steps)

include h

private theorem spent {α : Type} (act : Nat → Macro α) (hzero : act 0 = throw .exhausted)
    {fuel' : Nat} (hf : c.Fuels 0 fuel') :
    c.Holds (unseen (throw .exhausted)) (act fuel') := by
  cases fuel' with
  | zero =>
    rw [hzero]
    exact h.exhausted
  | succ fuel' => exact h.spare hf _

section Lines

variable {watched : Text → List Text → Watched Nat} {execute : Text → List Text → Macro Nat}
  (hx : ∀ {text text' : Text} {rest rest' : List Text}, c.Lines text text' → c.Rests rest rest' →
    c.Holds (watched text rest) (execute text' rest'))

include hx

/-- A pass over the lines of a loop. -/
theorem bodyOnce {body body' : List Text} (hb : List.Forall₂ c.Lines body body') :
    c.Holds (Watched.bodyOnce watched body) (Macro.bodyOnce execute body') := by
  induction hb with
  | nil => exact h.pure ()
  | cons hline hrest ih => exact h.bind (hx hline (h.rests hrest)) fun _ ↦ ih

/-- A loop. -/
theorem loopWhile (guard : Text) {body body' : List Text} (hb : List.Forall₂ c.Lines body body')
    {fuel fuel' : Nat} (hf : c.Fuels fuel fuel') :
    c.Holds (Watched.loopWhile watched guard body fuel)
      (Macro.loopWhile execute guard body' fuel') := by
  induction fuel generalizing fuel' with
  | zero => exact h.spent _ rfl hf
  | succ fuel ih =>
    obtain ⟨fuel', rfl, hless⟩ := h.pred hf
    refine h.bind (h.evaluate guard) fun v ↦ ?_
    split
    · exact h.bind (h.bodyOnce hx hb) fun _ ↦ ih hless
    · exact h.pure ()

end Lines

section Execute

variable {fuel fuel' : Nat}
  (hx : ∀ {text text' : Text} {rest rest' : List Text}, c.Lines text text' → c.Rests rest rest' →
    c.Holds (Watched.execute fuel text rest) (Macro.execute fuel' text' rest'))

include hx

/-- A call of a function. -/
theorem callLines (name : Text) {lines lines' : List Text}
    (hl : List.Forall₂ c.Lines lines lines') :
    c.Holds (Watched.callLines (Watched.execute fuel) name lines)
      (Macro.callLines (Macro.execute fuel') name lines') := by
  induction hl with
  | nil => exact h.pure ()
  | cons hline hrest ih => exact h.body fun _ _ hb ↦ h.bind (hx hline hb) fun _ ↦ ih

/-- What the command of a line asks for. -/
theorem perform (hf : c.Fuels fuel fuel') {line line' : Text} (hp : c.Prepared line line')
    {rest rest' : List Text} (hr : c.Rests rest rest') : c.Begins
      (do
        note (.began (.ofLine line))
        Watched.perform fuel (Watched.execute fuel) rest (.ofLine line))
      (Macro.perform fuel' (Macro.execute fuel') rest' (.ofLine line')) := by
  cases hc : Command.ofLine line with
  | loop guard =>
    obtain ⟨hc', hrest⟩ := h.loop hp hc
    obtain ⟨htaken, hbody⟩ := hrest rest rest' hr
    rw [hc', perform_loop, htaken]
    exact h.begins guard (h.bind (h.loopWhile hx guard hbody (h.succ hf)) fun _ ↦ h.pure _)
  | other name => exact h.other hp hc fun _ _ hb ↦ h.callLines hx name hb
  | _ =>
    have hsingle := h.single hp (by rw [hc]; trivial) hr fuel fuel' (Macro.execute fuel')
    rw [hc] at hsingle
    exact hsingle

end Execute

/-- The execution of a line. -/
theorem execute {fuel fuel' : Nat} (hf : c.Fuels fuel fuel') {text text' : Text}
    (ht : c.Lines text text') {rest rest' : List Text} (hr : c.Rests rest rest') :
    c.Holds (Watched.execute fuel text rest) (Macro.execute fuel' text' rest') := by
  induction fuel generalizing fuel' text text' rest rest' with
  | zero => exact h.marked (h.spent (fun fuel ↦ Macro.execute fuel text' rest') rfl hf)
  | succ fuel ih =>
    obtain ⟨fuel', rfl, hless⟩ := h.pred hf
    exact h.marked (h.prepare ht fun _ _ hp ↦ h.perform (fun ht hr ↦ ih hless ht hr) hless hp hr)

/-- A line of a script. -/
theorem line {text text' : Text} (ht : c.Lines text text') {rest rest' : List Text}
    (hr : c.Rests rest rest') : c.Holds (Watched.line text rest) (Macro.line text' rest') :=
  h.draws fun _ _ hf ↦ h.execute hf ht hr

/-- A line that is repeated, over lines of which enough is known whichever of them were taken. -/
theorem repeatLine {B : List Text → List Text → Prop} (hB : ∀ rest rest', B rest rest' →
      c.Rests rest rest' ∧ ∀ taken, B (rest.drop taken) (rest'.drop taken))
    (hpause : c.Holds (unseen Macro.defaultPause) Macro.defaultPause) {text text' : Text}
    (ht : c.Lines text text') (count : Nat) {rest rest' : List Text} (hr : B rest rest') :
    c.Holds (Watched.repeatLine text count rest) (Macro.repeatLine text' count rest') := by
  induction count generalizing rest rest' with
  | zero => exact h.pure 0
  | succ count ih =>
    refine h.bind (h.line ht (hB _ _ hr).1) fun taken ↦ h.bind hpause fun _ ↦ ?_
    exact h.bind (ih ((hB _ _ hr).2 taken)) fun _ ↦ h.pure _

end Steps

/-- The comparison holds of the steps of scripts, the lines of which are all in `P`. -/
structure Scripts (c : Comparison) (P : Text → Prop) : Prop extends c.Steps where
  readInt (t : Text) : c.Holds (unseen (Macro.ofExcept .notInteger (Number.readInt t)))
    (Macro.ofExcept .notInteger (Number.readInt t))
  pause : c.Holds (unseen Macro.defaultPause) Macro.defaultPause
  nil : c.Lines [] []
  text {raw : Text} (hr : P raw) : c.Lines (Macro.withoutComment raw) (Macro.withoutComment raw)
  after {rest : List Text} (hr : ∀ line ∈ rest, P line) : c.Rests rest rest
  allowance {t : Text} (ha : ∀ fuel fuel', c.Fuels fuel fuel' →
    c.Holds (Watched.runAgain (Text.lines t) fuel) (Macro.runAgain (Text.lines t) fuel')) :
    c.Holds (Watched.script t) (Macro.script t)

namespace Scripts

variable {c : Comparison} {P : Text → Prop} (h : c.Scripts P)

include h

/-- The lines of a script. -/
theorem runLines {previous : Text} (hp : c.Lines previous previous) {lines : List Text}
    (hl : ∀ line ∈ lines, P line) :
    c.Holds (Watched.runLines previous lines) (Macro.runLines previous lines) := by
  have hdrop : ∀ {rest : List Text} taken, (∀ line ∈ rest, P line) →
      ∀ line ∈ rest.drop taken, P line := fun taken hr line hm ↦ hr line (List.mem_of_mem_drop hm)
  have hrepeat : ∀ {text} count {rest}, c.Lines text text → (∀ line ∈ rest, P line) →
      c.Holds (Watched.repeatLine text count rest) (Macro.repeatLine text count rest) := by
    intro text count rest ht hr
    refine h.repeatLine (B := fun rest rest' ↦ rest' = rest ∧ ∀ line ∈ rest, P line) ?_ h.pause ht
      count ⟨rfl, hr⟩
    rintro rest _ ⟨rfl, hr⟩
    exact ⟨h.after hr, fun taken ↦ ⟨rfl, hdrop taken hr⟩⟩
  fun_induction Macro.runLines previous lines with
  | case1 previous =>
    rw [Watched.runLines]
    exact h.pure false
  | case2 previous raw rest text ht ih =>
    rw [Watched.runLines, if_pos ht]
    exact ih hp fun line hm ↦ hl line (List.mem_cons_of_mem _ hm)
  | case3 previous raw rest text ht hr ih =>
    have hrest : ∀ line ∈ rest, P line := fun line hm ↦ hl line (List.mem_cons_of_mem _ hm)
    rw [Watched.runLines, if_neg ht, if_pos hr]
    refine h.bind (h.readInt _) fun n ↦ h.bind (hrepeat n.toNat hp hrest) fun taken ↦ ?_
    exact h.bind h.pause fun _ ↦ ih taken hp (hdrop taken hrest)
  | case4 previous raw rest text ht hr hs =>
    rw [Watched.runLines, if_neg ht, if_neg hr, if_pos hs]
    exact h.pure true
  | case5 previous raw rest text ht hr hs hstop =>
    rw [Watched.runLines, if_neg ht, if_neg hr, if_neg hs, if_pos hstop]
    exact h.pure false
  | case6 previous raw rest text ht hr hs hstop ih =>
    have hrest : ∀ line ∈ rest, P line := fun line hm ↦ hl line (List.mem_cons_of_mem _ hm)
    have htext := h.text (hl raw List.mem_cons_self)
    rw [Watched.runLines, if_neg ht, if_neg hr, if_neg hs, if_neg hstop]
    refine h.bind (h.line htext (h.after hrest)) fun taken ↦ h.bind h.pause fun _ ↦ ?_
    exact ih taken htext (hdrop taken hrest)

/-- Lines that are run as long as they ask for it. -/
theorem runAgain {lines : List Text} (hl : ∀ line ∈ lines, P line) {fuel fuel' : Nat}
    (hf : c.Fuels fuel fuel') :
    c.Holds (Watched.runAgain lines fuel) (Macro.runAgain lines fuel') := by
  induction fuel generalizing fuel' with
  | zero => exact h.spent _ rfl hf
  | succ fuel ih =>
    obtain ⟨fuel', rfl, hless⟩ := h.pred hf
    refine h.bind (h.runLines h.nil hl) fun again ↦ ?_
    split
    · exact ih hless
    · exact h.pure ()

/-- A script. -/
theorem script {t : Text} (hl : ∀ line ∈ Text.lines t, P line) :
    c.Holds (Watched.script t) (Macro.script t) :=
  h.allowance fun _ _ hf ↦ h.runAgain hl hf

end Scripts

/-- The comparison holds of what jobs do around their scripts too. -/
structure Jobs (c : Comparison) (P : Text → Prop) : Prop extends c.Scripts P where
  print (line : Text) : c.Holds (unseen (Macro.print line)) (Macro.print line)
  recover {w : Watched Unit} {act : Macro Unit} (hw : c.Holds w act) {handle : Fault → Macro Unit}
    (hh : ∀ fault, c.Holds (unseen (handle fault)) (handle fault)) :
    c.Holds (Watched.recover w handle) (Macro.recover act handle)
  lines (lines : List Text) : c.Holds (unseen (lines.forM Macro.print)) (lines.forM Macro.print)

namespace Jobs

variable {c : Comparison} {P : Text → Prop} (h : c.Jobs P)

include h

/-- A job. -/
theorem job {j : Job} (hl : ∀ line ∈ j.lines, P line) : c.Holds (Watched.job j) j.run := by
  cases j with
  | script t => exact h.recover (h.script hl) fun _ ↦ h.pure ()
  | message bytes =>
    simp only [Watched.job, Job.run]
    simp only [Job.lines] at hl
    cases hs : Serial.scriptIn? bytes with
    | none =>
      obtain ⟨lines, hm⟩ := Serial.message_eq_forM_print hs
      rw [hm]
      exact h.lines lines
    | some found =>
      rw [hs] at hl
      rw [Serial.message_eq_runBetween hs]
      refine h.recover ?_ fun fault ↦ h.print _
      refine h.bind (h.print _) fun _ ↦ h.bind (h.print _) fun _ ↦ ?_
      exact h.bind (h.script hl) fun _ ↦ h.print _

/-- Jobs one after the other. -/
theorem runAll {jobs : List Job} (hl : ∀ j ∈ jobs, ∀ line ∈ j.lines, P line) :
    c.Holds (Watched.runAll jobs) (Job.runAll jobs) := by
  induction jobs with
  | nil => exact h.pure ()
  | cons first rest ih =>
    rw [List.forall_mem_cons] at hl
    exact h.bind (h.job hl.1) fun _ ↦ ih hl.2

end Jobs

end Comparison

/-! ### Two runs of the same lines -/

/-- The same line, which is in `P`. -/
def Same (P : Text → Prop) (line line' : Text) : Prop := line' = line ∧ P line

/-- The same lines, all of which are in `P`. -/
def AllSame (P : Text → Prop) (lines lines' : List Text) : Prop :=
  lines' = lines ∧ ∀ line ∈ lines, P line

/-- Lines are the same one by one. -/
theorem forall₂_same_iff {P : Text → Prop} {lines lines' : List Text} :
    List.Forall₂ (Same P) lines lines' ↔ AllSame P lines lines' := by
  constructor
  · intro h
    induction h with
    | nil => exact ⟨rfl, by simp⟩
    | cons hline _ ih =>
      obtain ⟨rfl, hp⟩ := hline
      obtain ⟨rfl, hall⟩ := ih
      exact ⟨rfl, List.forall_mem_cons.mpr ⟨hp, hall⟩⟩
  · rintro ⟨rfl, hall⟩
    exact List.forall₂_same.mpr fun line hm ↦ ⟨rfl, hall line hm⟩

/-- A loop over the same lines. -/
theorem loop_same {P : Text → Prop} {line line' guard : Text} (hp : Same P line line')
    (hl : Command.ofLine line = .loop guard) :
    Command.ofLine line' = .loop guard ∧ ∀ rest rest', AllSame P rest rest' →
      (Macro.loopBody 1 rest').2 = (Macro.loopBody 1 rest).2 ∧
        List.Forall₂ (Same P) (Macro.loopBody 1 rest).1 (Macro.loopBody 1 rest').1 := by
  obtain ⟨rfl, -⟩ := hp
  refine ⟨hl, ?_⟩
  rintro rest _ ⟨rfl, hr⟩
  exact ⟨rfl, forall₂_same_iff.mpr ⟨rfl, fun line hm ↦ hr line (mem_of_mem_loopBody hm)⟩⟩

section TwoRuns

variable [Evaluator]

/-- The relation `C` holds of the steps of two runs of the same lines, all of which are in `P`, where
the machines at hand are related by `S` and the amounts of fuel by `F`. -/
structure TwoRuns (P : Text → Prop) (F : Nat → Nat → Prop) (S : Machine → Machine → Prop)
    (C : ∀ {α : Type}, Macro α → Macro α → Prop) : Prop where
  pure {α : Type} (a : α) : C (pure a) (pure a)
  bind {α β : Type} {act act' : Macro α} {next next' : α → Macro β} (ha : C act act')
    (hn : ∀ a, C (next a) (next' a)) : C (act >>= next) (act' >>= next')
  get {α : Type} {next next' : Machine → Macro α} (hn : ∀ m m', S m m' → C (next m) (next' m')) :
    C (get >>= next) (get >>= next')
  exhausted {α : Type} : C (throw .exhausted : Macro α) (throw .exhausted)
  spare {α : Type} {fuel : Nat} (hf : F 0 (fuel + 1)) (act : Macro α) : C (throw .exhausted) act
  pred {fuel fuel' : Nat} (hf : F (fuel + 1) fuel') : ∃ k, fuel' = k + 1 ∧ F fuel k
  succ {fuel fuel' : Nat} (hf : F fuel fuel') : F (fuel + 1) (fuel' + 1)
  functions {m m' : Machine} (hm : S m m') : m'.functions = m.functions
  stored {m m' : Machine} (hm : S m m') {name : Text} {body : List Text}
    (hb : m.functions.get? name = some body) : ∀ line ∈ body, P line
  draws {m m' : Machine} (hm : S m m') : F (m.random.draws + 1) (m'.random.draws + 1)
  allowance {m m' : Machine} (hm : S m m') :
    F (m.trace.room + m.random.draws + 2) (m'.trace.room + m'.random.draws + 2)
  evaluate (t : Text) : C (Macro.evaluate t) (Macro.evaluate t)
  prepare {α : Type} {text : Text} (ht : P text) {next next' : Text → Macro α}
    (hn : ∀ line, P line → C (next line) (next' line)) :
    C (Macro.prepare text >>= next) (Macro.prepare text >>= next')
  single {line : Text} (hp : P line) (hs : (Command.ofLine line).IsSingle) {rest : List Text}
    (hr : ∀ line ∈ rest, P line) (fuel fuel' : Nat)
    (execute execute' : Text → List Text → Macro Nat) :
    C (Macro.perform fuel execute rest (.ofLine line))
      (Macro.perform fuel' execute' rest (.ofLine line))
  keys (line : Text) : C (Macro.pressLine line) (Macro.pressLine line)
  readInt (t : Text) : C (Macro.ofExcept .notInteger (Number.readInt t))
    (Macro.ofExcept .notInteger (Number.readInt t))
  pause : C Macro.defaultPause Macro.defaultPause
  nil : P []
  text {raw : Text} (hr : P raw) : P (Macro.withoutComment raw)
  print (line : Text) : C (Macro.print line) (Macro.print line)
  recover {act act' : Macro Unit} (ha : C act act') {handle : Fault → Macro Unit}
    (hh : ∀ fault, C (handle fault) (handle fault)) :
    C (Macro.recover act handle) (Macro.recover act' handle)

namespace TwoRuns

open Watched

variable {P : Text → Prop} {F : Nat → Nat → Prop} {S : Machine → Machine → Prop}
  {C : ∀ {α : Type}, Macro α → Macro α → Prop} (h : TwoRuns P F S C)

/-- Two runs of the same lines, the first of which is watched. -/
@[reducible]
def comparison (P : Text → Prop) (F : Nat → Nat → Prop)
    (C : ∀ {α : Type}, Macro α → Macro α → Prop) : Comparison where
  Holds w act := C (erase w) act
  Begins w act := C (erase w) act
  Fuels := F
  Lines := Same P
  Prepared := Same P
  Rests := AllSame P

include h

/-- The two runs are compared without the notes of the first. -/
theorem jobs : (comparison P F C).Jobs P := by
  have hbind : ∀ {α β : Type} {w : Watched α} {act : Macro α} {next : α → Watched β}
      {next' : α → Macro β}, C (erase w) act → (∀ a, C (erase (next a)) (next' a)) →
        C (erase (w >>= next)) (act >>= next') := by
    intro α β w act next next' hw hn
    rw [erase_bind]
    exact h.bind hw hn
  have hget : ∀ {α : Type} {next : Machine → Watched α} {next' : Machine → Macro α},
      (∀ m m', S m m' → C (erase (next m)) (next' m')) →
        C (erase (unseen MonadState.get >>= next)) (MonadState.get >>= next') := by
    intro α next next' hn
    rw [erase_bind]
    exact h.get hn
  have hnote : ∀ {n : Note} {w : Watched Nat} {act : Macro Nat}, C (erase w) act →
      C (erase (note n >>= fun _ ↦ w)) act := by
    intro n w act hw
    rw [erase_bind]
    exact hw
  have hbody : ∀ {m m' : Machine}, S m m' → ∀ name, AllSame P ((m.functions.get? name).getD [])
      ((m'.functions.get? name).getD []) := by
    intro m m' hm name
    rw [h.functions hm]
    refine ⟨rfl, ?_⟩
    cases hb : m.functions.get? name with
    | none => simp
    | some body => exact h.stored hm hb
  constructor
  constructor
  constructor
  case pure => exact h.pure
  case bind => exact hbind
  case marked => exact id
  case exhausted => exact h.exhausted
  case spare => exact h.spare
  case pred => exact h.pred
  case succ => exact h.succ
  case rests => exact forall₂_same_iff.mp
  case evaluate => exact h.evaluate
  case prepare =>
    rintro fuel fuel' text _ rest rest' ⟨rfl, ht⟩ hp
    change C (erase (_ >>= _)) _
    rw [erase_bind]
    exact h.prepare ht fun line hl ↦ hp line line ⟨rfl, hl⟩
  case single =>
    rintro line _ rest _ ⟨rfl, hl⟩ hs ⟨rfl, hr⟩ fuel fuel' execute
    exact hnote (h.single hl hs hr fuel fuel' _ execute)
  case loop => exact loop_same
  case begins => exact fun guard hw ↦ hnote hw
  case other =>
    rintro line _ name rest rest' fuel fuel' ⟨rfl, -⟩ hl hc
    rw [hl]
    refine hnote (hget fun m m' hm ↦ ?_)
    rw [h.functions hm]
    cases hb : m.functions.get? name with
    | none => exact hbind (h.keys name) fun _ ↦ h.pure 0
    | some body =>
      have hlines := forall₂_same_iff.mpr ⟨rfl, h.stored hm hb⟩
      exact hbind (hc body body hlines) fun _ ↦ h.pure 0
  case body => exact fun hw ↦ hget fun m m' hm ↦ hw _ _ (hbody hm _)
  case draws => exact fun hx ↦ hget fun m m' hm ↦ hx _ _ (h.draws hm)
  case readInt => exact h.readInt
  case pause => exact h.pause
  case nil => exact ⟨rfl, h.nil⟩
  case text => exact fun hr ↦ ⟨rfl, h.text hr⟩
  case after => exact fun hr ↦ ⟨rfl, hr⟩
  case allowance => exact fun ha ↦ hget fun m m' hm ↦ ha _ _ (h.allowance hm)
  case print => exact h.print
  case recover =>
    intro w act hw handle hh
    change C (erase (Watched.recover _ _)) _
    rw [erase_recover]
    exact h.recover hw hh
  case lines =>
    intro lines
    induction lines with
    | nil => exact h.pure _
    | cons line rest ih => exact h.bind (h.print line) fun _ ↦ ih

end TwoRuns

/-- A run is the same as itself. -/
theorem twoRuns_eq : TwoRuns (fun _ ↦ True) Eq Eq fun act act' ↦ act = act' where
  pure _ := rfl
  bind ha hn := by rw [ha, funext hn]
  get hn := congrArg _ (funext fun m ↦ hn m m rfl)
  exhausted := rfl
  spare hf := nomatch hf
  pred hf := ⟨_, hf.symm, rfl⟩
  succ hf := congrArg (· + 1) hf
  functions hm := by rw [hm]
  stored _ _ _ _ _ _ := trivial
  draws hm := by rw [hm]
  allowance hm := by rw [hm]
  evaluate _ := rfl
  prepare _ _ _ hn := congrArg (Bind.bind _) (funext fun line ↦ hn line trivial)
  single _ hs _ _ fuel fuel' execute execute' :=
    Macro.perform_of_isSingle hs fuel fuel' execute execute' _
  keys _ := rfl
  readInt _ := rfl
  pause := rfl
  nil := trivial
  text _ := trivial
  print _ := rfl
  recover ha _ _ := by rw [ha]

namespace Watched

private theorem erase_callLines (fuel : Nat) (name : Text) (lines : List Text) :
    erase (callLines (execute fuel) name lines) = Macro.callLines (Macro.execute fuel) name lines :=
  (TwoRuns.jobs twoRuns_eq).callLines (fun ht hr ↦ (TwoRuns.jobs twoRuns_eq).execute rfl ht hr) name
    (forall₂_same_iff.mpr ⟨rfl, fun _ _ ↦ trivial⟩)

/-- A watched line of a script is the line. -/
theorem erase_line (text : Text) (rest : List Text) :
    erase (line text rest) = Macro.line text rest :=
  (TwoRuns.jobs twoRuns_eq).line ⟨rfl, trivial⟩ ⟨rfl, fun _ _ ↦ trivial⟩

private theorem erase_perform (fuel : Nat) (rest : List Text) (line : Text) :
    erase (do note (.began (.ofLine line)); perform fuel (execute fuel) rest (.ofLine line)) =
      Macro.perform fuel (Macro.execute fuel) rest (.ofLine line) :=
  (TwoRuns.jobs twoRuns_eq).perform (fun ht hr ↦ (TwoRuns.jobs twoRuns_eq).execute rfl ht hr) rfl
    ⟨rfl, trivial⟩ ⟨rfl, fun _ _ ↦ trivial⟩

private theorem erase_runLines (previous : Text) (lines : List Text) :
    erase (runLines previous lines) = Macro.runLines previous lines :=
  (TwoRuns.jobs twoRuns_eq).runLines ⟨rfl, trivial⟩ fun _ _ ↦ trivial

private theorem erase_runAgain (lines : List Text) (fuel : Nat) :
    erase (runAgain lines fuel) = Macro.runAgain lines fuel :=
  (TwoRuns.jobs twoRuns_eq).runAgain (fun _ _ ↦ trivial) rfl

private theorem erase_script (t : Text) : erase (script t) = Macro.script t :=
  (TwoRuns.jobs twoRuns_eq).script fun _ _ ↦ trivial

private theorem erase_job (j : Job) : erase (job j) = j.run :=
  (TwoRuns.jobs twoRuns_eq).job fun _ _ ↦ trivial

/-- Without its notes a watched run is the run. -/
theorem erase_runAll (jobs : List Job) : erase (runAll jobs) = Job.runAll jobs :=
  (TwoRuns.jobs twoRuns_eq).runAll fun _ _ _ _ ↦ trivial

end Watched

namespace TwoRuns

variable {P : Text → Prop} {F : Nat → Nat → Prop} {S : Machine → Machine → Prop}
  {C : ∀ {α : Type}, Macro α → Macro α → Prop} (h : TwoRuns P F S C)

include h

/-- The lines of a function. -/
theorem callLines {fuel fuel' : Nat} (hf : F fuel fuel') (name : Text) {lines : List Text}
    (hl : ∀ line ∈ lines, P line) :
    C (Macro.callLines (Macro.execute fuel) name lines)
      (Macro.callLines (Macro.execute fuel') name lines) := by
  rw [← Watched.erase_callLines fuel]
  exact h.jobs.callLines (fun ht hr ↦ h.jobs.execute hf ht hr) name
    (forall₂_same_iff.mpr ⟨rfl, hl⟩)

/-- The command of a line. -/
theorem perform {fuel fuel' : Nat} (hf : F fuel fuel') {line : Text} (hp : P line)
    {rest : List Text} (hr : ∀ line ∈ rest, P line) :
    C (Macro.perform fuel (Macro.execute fuel) rest (.ofLine line))
      (Macro.perform fuel' (Macro.execute fuel') rest (.ofLine line)) := by
  have hline : C (Watched.erase (do
      Watched.note (.began (.ofLine line))
      Watched.perform fuel (Watched.execute fuel) rest (.ofLine line)))
      (Macro.perform fuel' (Macro.execute fuel') rest (.ofLine line)) :=
    h.jobs.perform (fun ht hr ↦ h.jobs.execute hf ht hr) hf ⟨rfl, hp⟩ ⟨rfl, hr⟩
  rwa [Watched.erase_perform] at hline

/-- A line of a script. -/
theorem line {text : Text} (ht : P text) {rest : List Text} (hr : ∀ line ∈ rest, P line) :
    C (Macro.line text rest) (Macro.line text rest) := by
  have hline : C (Watched.erase (Watched.line text rest)) (Macro.line text rest) :=
    h.jobs.line ⟨rfl, ht⟩ ⟨rfl, hr⟩
  rwa [Watched.erase_line] at hline

/-- The lines of a script. -/
theorem runLines {previous : Text} (hp : P previous) {lines : List Text}
    (hl : ∀ line ∈ lines, P line) :
    C (Macro.runLines previous lines) (Macro.runLines previous lines) := by
  have hlines : C (Watched.erase (Watched.runLines previous lines)) (Macro.runLines previous lines) :=
    h.jobs.runLines ⟨rfl, hp⟩ hl
  rwa [Watched.erase_runLines] at hlines

/-- Lines that are run as long as they ask for it. -/
theorem runAgain {lines : List Text} (hl : ∀ line ∈ lines, P line) {fuel fuel' : Nat}
    (hf : F fuel fuel') : C (Macro.runAgain lines fuel) (Macro.runAgain lines fuel') := by
  have hlines : C (Watched.erase (Watched.runAgain lines fuel)) (Macro.runAgain lines fuel') :=
    h.jobs.runAgain hl hf
  rwa [Watched.erase_runAgain] at hlines

/-- A script. -/
theorem script {t : Text} (hl : ∀ line ∈ Text.lines t, P line) :
    C (Macro.script t) (Macro.script t) := by
  have hscript : C (Watched.erase (Watched.script t)) (Macro.script t) := h.jobs.script hl
  rwa [Watched.erase_script] at hscript

/-- A job. -/
theorem job {j : Job} (hl : ∀ line ∈ j.lines, P line) : C j.run j.run := by
  have hjob : C (Watched.erase (Watched.job j)) j.run := h.jobs.job hl
  rwa [Watched.erase_job] at hjob

/-- Jobs one after the other. -/
theorem runAll {jobs : List Job} (hl : ∀ j ∈ jobs, ∀ line ∈ j.lines, P line) :
    C (Job.runAll jobs) (Job.runAll jobs) := by
  have hjobs : C (Watched.erase (Watched.runAll jobs)) (Job.runAll jobs) := h.jobs.runAll hl
  rwa [Watched.erase_runAll] at hjobs

end TwoRuns

end TwoRuns

/-! ### Properties of one run -/

section OneRun

variable [Evaluator]

/-- The property holds of the steps of which jobs are made, whatever the lines. -/
structure OneRun (Q : ∀ {α : Type}, Macro α → Prop) : Prop where
  pure {α : Type} (a : α) : Q (pure a)
  bind {α β : Type} {act : Macro α} {next : α → Macro β} (ha : Q act) (hn : ∀ a, Q (next a)) :
    Q (act >>= next)
  get : Q get
  exhausted {α : Type} : Q (throw .exhausted : Macro α)
  evaluate (t : Text) : Q (Macro.evaluate t)
  prepare (text : Text) : Q (Macro.prepare text)
  single {line : Text} (hs : (Command.ofLine line).IsSingle) (fuel : Nat)
    (execute : Text → List Text → Macro Nat) (rest : List Text) :
    Q (Macro.perform fuel execute rest (.ofLine line))
  keys (line : Text) : Q (Macro.pressLine line)
  readInt (t : Text) : Q (Macro.ofExcept .notInteger (Number.readInt t))
  pause : Q Macro.defaultPause
  print (line : Text) : Q (Macro.print line)
  recover {act : Macro Unit} (ha : Q act) {handle : Fault → Macro Unit}
    (hh : ∀ fault, Q (handle fault)) : Q (Macro.recover act handle)

namespace OneRun

variable {Q : ∀ {α : Type}, Macro α → Prop} (h : OneRun Q)

include h

/-- A property of one run is a relation that does not look at the other. -/
theorem twoRuns : TwoRuns (fun _ ↦ True) Eq Eq fun act _ ↦ Q act where
  pure := h.pure
  bind := h.bind
  get hn := h.bind h.get fun m ↦ hn m m rfl
  exhausted := h.exhausted
  spare hf := nomatch hf
  pred hf := ⟨_, hf.symm, rfl⟩
  succ hf := congrArg (· + 1) hf
  functions hm := by rw [hm]
  stored _ _ _ _ _ _ := trivial
  draws hm := by rw [hm]
  allowance hm := by rw [hm]
  evaluate := h.evaluate
  prepare _ _ _ hn := h.bind (h.prepare _) fun line ↦ hn line trivial
  single _ hs _ _ fuel _ execute _ := h.single hs fuel execute _
  keys := h.keys
  readInt := h.readInt
  pause := h.pause
  nil := trivial
  text _ := trivial
  print := h.print
  recover := h.recover

/-- A script has the property. -/
theorem script (t : Text) : Q (Macro.script t) := h.twoRuns.script fun _ _ ↦ trivial

/-- A job has the property. -/
theorem job (j : Job) : Q j.run := h.twoRuns.job fun _ _ ↦ trivial

/-- Jobs one after the other have the property. -/
theorem runAll (jobs : List Job) : Q (Job.runAll jobs) := h.twoRuns.runAll fun _ _ _ _ ↦ trivial

end OneRun

end OneRun

end Deskhand.Script
