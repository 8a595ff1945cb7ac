import Deskhand.Proofs.LoopReplay
import Deskhand.Proofs.BoundsIndependence

/-!
# When a call follows the body of the function

A function is called by executing its lines one after the other, each with all lines of the function
at hand. Commands that read no further lines do not notice; a command that opens a block reads from
the first line of the function, and the lines of the block are executed besides. So a call executes
the commands of the body once each in order exactly when the body has no block.
-/

namespace Deskhand.Script

open Macro

/-! ### The commands of a body -/

/-- A command that reads lines after its own. -/
def Command.Reads : Command → Prop
  | .skipBlock | .typeBlock _ | .function (some _) | .loop _ => True
  | _ => False

/-- A line to be executed, and the lines it has at hand. -/
structure Step where
  text : Text
  following : List Text
  /-- Whether the line stands for itself, and opens no block. -/
  single : Bool

/-- The commands of a body in order, each with the lines that follow it in the body. -/
def Body.steps : Body → List Step
  | .done => []
  | .line text rest => ⟨text, rest.lines, true⟩ :: rest.steps
  | .block opener inner close rest => ⟨opener, inner ++ close :: rest.lines, false⟩ :: rest.steps
  | .loop guard inner rest =>
    ⟨loopLine guard, inner.lines ++ endLine :: rest.lines, false⟩ :: rest.steps

/-- Lines to be executed one after the other, all of them at hand for each. -/
def wholeSteps (lines : List Text) : List Step := lines.map fun text ↦ ⟨text, lines, false⟩

namespace Macro

/-- Executes one step after the other. -/
def inOrder (fuel : Nat) : List Step → Macro Unit
  | [] => pure ()
  | step :: rest => do
    let _ ← execute fuel step.text step.following
    inOrder fuel rest

end Macro

/-- Something holds of each step and of the machine in which it is executed. -/
def Along (P : Step → Machine → Prop) (fuel : Nat) : List Step → Machine → Prop
  | [], _ => True
  | step :: rest, m =>
    P step m ∧ ∀ taken m', execute fuel step.text step.following m = .ok taken m' →
      Along P fuel rest m'

/-- The step reads no further lines if it is written as a single line: the defined words do not turn
it into a command that does. -/
def StaysSingle (step : Step) (m : Machine) : Prop :=
  step.single → ∀ line m', prepare step.text m = .ok line m' → ¬ (Command.ofLine line).Reads

/-- The function has the given lines when the step is executed. -/
def FunctionIs (name : Text) (lines : List Text) (_ : Step) (m : Machine) : Prop :=
  m.functions.get? name = some lines

/-- The line is understood as the name of a function with the given lines, which leaves the second
machine. -/
structure Machine.Calls (m : Machine) (text name : Text) (lines : List Text) (m' : Machine) :
    Prop where
  prepared : prepare text m = .ok name m'
  command : Command.ofLine name = .other name
  function : m'.functions.get? name = some lines

private theorem Body.length_steps (body : Body) : body.steps.length = body.size := by
  induction body with
  | done => rfl
  | line text rest ih => simp [steps, size, ih]
  | block opener inner close rest ih => simp [steps, size, ih]
  | loop guard inner rest _ ih => simp [steps, size, ih]

/-- Every command of a body is one of its lines. -/
theorem Body.text_mem_lines {body : Body} {step : Step} (h : step ∈ body.steps) :
    step.text ∈ body.lines := by
  induction body with
  | done => cases h
  | line text rest ih =>
    rcases List.mem_cons.mp h with rfl | h
    · exact List.mem_cons_self
    · exact List.mem_cons_of_mem _ (ih h)
  | block opener inner close rest ih =>
    rcases List.mem_cons.mp h with rfl | h
    · exact List.mem_cons_self
    · simp [lines, ih h]
  | loop guard inner rest _ ih =>
    rcases List.mem_cons.mp h with rfl | h
    · exact List.mem_cons_self
    · simp [lines, ih h]

namespace Macro

variable {m m' : Machine} {name text : Text} {lines : List Text}

/-! ### Calls -/

/-- What a command does depends on the lines after it only if it reads them. -/
theorem perform_of_not_reads [Evaluator] {command : Command} (h : ¬ command.Reads) (fuel : Nat)
    (execute : Text → List Text → Macro Nat) (rest rest' : List Text) :
    perform fuel execute rest command = perform fuel execute rest' command := by
  cases command with
  | skipBlock => exact absurd trivial h
  | typeBlock enter => exact absurd trivial h
  | loop guard => exact absurd trivial h
  | function name =>
    cases name with
    | none => rfl
    | some name => exact absurd trivial h
  | delay digits => cases digits <;> rfl
  | _ => rfl

/-- A line that is understood as a command that reads no further lines does the same whatever lines
are at hand. -/
theorem execute_of_not_reads [Evaluator]
    (h : ∀ line m', prepare text m = .ok line m' → ¬ (Command.ofLine line).Reads) (fuel : Nat)
    (rest rest' : List Text) : execute fuel text rest m = execute fuel text rest' m := by
  cases fuel with
  | zero => rfl
  | succ fuel =>
    rw [execute, execute]
    cases hp : prepare text m with
    | ok line m' =>
      rw [bind_of_ok hp, bind_of_ok hp, perform_of_not_reads (h line m' hp)]
    | error halt m' => rw [bind_of_error hp, bind_of_error hp]

private theorem execute_of_calls (h : m.Calls text name lines m') (fuel : Nat) (rest : List Text) :
    execute (fuel + 1) text rest m =
      (callLines (execute fuel) name lines >>= fun _ ↦ pure 0) m' := by
  rw [execute, bind_of_ok h.prepared, h.command, perform, bind_of_ok (run_get m'), h.function]

/-- As long as the function keeps its lines, every line of a call has all of them at hand. -/
theorem callLines_eq_inOrder {fuel : Nat} {part : List Text}
    (h : Along (FunctionIs name lines) fuel (part.map fun text ↦ ⟨text, lines, false⟩) m) :
    callLines (execute fuel) name part m =
      inOrder fuel (part.map fun text ↦ ⟨text, lines, false⟩) m := by
  induction part generalizing m with
  | nil => rfl
  | cons text part ih =>
    obtain ⟨hf, hrest⟩ := h
    rw [callLines, bind_of_ok (run_get m), show m.functions.get? name = some lines from hf,
      List.map_cons, inOrder]
    simp only [Option.getD_some]
    cases hx : execute fuel text lines m with
    | ok taken m' => rw [bind_of_ok hx, bind_of_ok hx, ih (hrest taken m' hx)]
    | error halt m' => rw [bind_of_error hx, bind_of_error hx]

/-- A body of single lines that stay single is executed command by command when it is called. -/
theorem callLines_eq_steps {fuel : Nat} {body : Body} (hb : body.Flat)
    (h : Along StaysSingle fuel body.steps m) :
    callLines (execute fuel) name body.lines m = inOrder fuel body.steps m := by
  induction body generalizing m with
  | done => rfl
  | line text rest ih =>
    obtain ⟨hs, hrest⟩ := h
    -- the lines at hand do not matter to the first command, whatever the function has by now
    have hx : ∀ lines, execute fuel text lines m = execute fuel text rest.lines m := fun lines ↦
      execute_of_not_reads (hs rfl) fuel lines rest.lines
    rw [Body.lines, callLines, bind_of_ok (run_get m), Body.steps, inOrder]
    cases hr : execute fuel text rest.lines m with
    | ok taken m' =>
      rw [bind_of_ok ((hx _).trans hr), bind_of_ok hr, ih hb (hrest taken m' hr)]
    | error halt m' => rw [bind_of_error ((hx _).trans hr), bind_of_error hr]
  | block => exact hb.elim
  | loop => exact hb.elim

end Macro

/-! ### A machine in which all lines print -/

/-- Defined words that leave nothing of a line but its length, and a meaning for two lengths. -/
def clearing (chars : List Char) (n : Nat) : Table Text :=
  chars.map (fun c ↦ ([c], ['~'])) ++
    [(filler (n + 1), "PRINT".toList), (filler n, "A".toList), (['~'], [])]

/-- What the defined words make of a line of a given length. -/
def cleared (n length : Nat) : Text :=
  if length = n + 1 then "PRINT" else if length = n then "A" else []

/-- A machine in which every line of less than `n` of the given characters calls the function
without a name, which prints. Besides it has a function with the given lines. -/
def teller (chars : List Char) (n : Nat) (lines : List Text) (random : Random) (trace : Trace) :
    Machine :=
  { «variables» := counterValues 0,
    defines := clearing chars n,
    functions := [([], [filler (n + 1)]), ("A".toList, lines)],
    random, trace }

variable {chars : List Char} {n : Nat}

/-- The defined words make of a line what its length says. -/
theorem withDefines_clearing {t : Text} (hc : ∀ c ∈ t, c ∈ chars) (hn : 0 < n)
    (hl : t.length ≤ n + 1) : withDefines (clearing chars n) t = cleared n t.length := by
  have hfill : withDefines (chars.map fun c ↦ ([c], ['~'])) t = filler t.length := by
    rw [withDefines_chars, List.map_congr_left (g := fun _ ↦ '~') fun c h ↦ if_pos (hc c h)]
    exact List.map_const' ..
  have hstart : withDefines (clearing chars n) t = Text.replaceAll (Text.replaceAll
      (Text.replaceAll (filler t.length) (filler (n + 1)) "PRINT") (filler n) "A") ['~'] [] := by
    rw [← hfill]
    simp only [clearing, withDefines, List.foldl_append, List.foldl_cons, List.foldl_nil]
  obtain ⟨k, rfl⟩ : ∃ k, n = k + 1 := ⟨n - 1, by omega⟩
  rw [hstart]
  generalize t.length = length at hl
  have hprint : '~' ∉ "PRINT".toList := by decide
  have hname : '~' ∉ "A".toList := by decide
  obtain rfl | rfl | hlt : length = k + 1 + 1 ∨ length = k + 1 ∨ length < k + 1 := by omega
  · rw [replaceAll_filler_self, replaceAll_filler_of_not_mem hprint,
      Text.replaceAll_of_not_mem hprint, cleared, if_pos rfl]
  · rw [replaceAll_filler_of_lt (by omega), replaceAll_filler_self,
      Text.replaceAll_of_not_mem hname, cleared, if_neg (by omega), if_pos rfl]
  · rw [replaceAll_filler_of_lt (by omega), replaceAll_filler_of_lt hlt,
      Text.replaceAll_singleton, cleared, if_neg (by omega), if_neg (by omega)]
    simp [filler]

private theorem replaceDefines_grounded (text : Text) (m : Machine) (random : Random) :
    replaceDefines (Text.replaceAll (Text.trim text) "$_RANDOM_INT" "0".toList)
        (m.withRandom random) =
      .ok (withDefines m.defines (grounded text)) (m.withRandom random) := rfl

/-- With both bounds at zero, a line is prepared with zero for the random number. -/
theorem prepare_grounded {m : Machine} (hmin : m.variables.get? minName = some (.int 0))
    (hmax : m.variables.get? maxName = some (.int 0)) (hd : 0 < m.random.draws) (text : Text) :
    prepare text m =
      .ok (withDefines m.defines (grounded text)) (m.withRandom m.random.next) := by
  have hdraw := drawBetween_of_le (m := m) (Int.le_refl 0) hd
  rw [show ((0 : Int) - 0 + 1).toNat = 1 from rfl, Nat.mod_one, Int.natCast_zero,
    Int.add_zero] at hdraw
  have hlow : bound minName 0 m = .ok 0 m := bound_of_ok (by rw [boundValue_of_get? hmin]; rfl)
  have hhigh : bound maxName 65535 m = .ok 0 m := bound_of_ok (by rw [boundValue_of_get? hmax]; rfl)
  rw [prepare_eq, bind_of_ok hlow, bind_of_ok hhigh, bind_of_ok hdraw,
    bind_of_ok (integerText_zero _)]
  exact replaceDefines_grounded text m _

section Telling

variable (lines : List Text) {r : Random}

private theorem prepare_teller {text : Text} (hn : 0 < n) (hc : ∀ c ∈ grounded text, c ∈ chars)
    (hl : (grounded text).length ≤ n + 1) (hd : 0 < r.draws) (trace : Trace) :
    prepare text (teller chars n lines r trace) =
      .ok (cleared n (grounded text).length) (teller chars n lines r.next trace) := by
  rw [← withDefines_clearing hc hn hl]
  exact prepare_grounded (m := teller chars n lines r trace) rfl rfl hd text

variable (hfill : '~' ∈ chars)

include hfill

/-- A run of filling signs is prepared to what its length says. -/
theorem prepare_teller_filler {k : Nat} (hn : 0 < n) (hk : k ≤ n + 1) (hd : 0 < r.draws)
    (trace : Trace) : prepare (filler k) (teller chars n lines r trace) =
      .ok (cleared n k) (teller chars n lines r.next trace) := by
  have hmem : ∀ c ∈ grounded (filler k), c ∈ chars := by
    intro c hc
    rw [grounded_filler] at hc
    rwa [List.eq_of_mem_replicate hc]
  have hlen : (grounded (filler k)).length = k := by
    rw [grounded_filler]
    exact List.length_replicate
  have hprepared := prepare_teller lines hn hmem (by omega) hd trace
  rwa [hlen] at hprepared

private theorem calls_teller (hn : 0 < n) (hd : 0 < r.draws) (trace : Trace) :
    (teller chars n lines r trace).Calls (filler n) "A" lines
      (teller chars n lines r.next trace) := by
  have hname : cleared n n = "A".toList := by
    rw [cleared, if_neg (by omega), if_pos rfl]
  refine ⟨?_, rfl, rfl⟩
  rw [← hname]
  exact prepare_teller_filler lines hfill hn (by omega) hd trace

/-- The line of the function without a name prints. -/
theorem execute_teller_print (hn : 0 < n) (hd : 0 < r.draws) (fuel : Nat) (rest : List Text)
    (events : Array Event) (room : Nat) :
    execute (fuel + 1) (filler (n + 1)) rest (teller chars n lines r ⟨events, room + 1⟩) =
      .ok 0 (teller chars n lines r.next ⟨events.push (.print "[SCRIPT]: "), room⟩) := by
  have hword : cleared n (n + 1) = "PRINT".toList := if_pos rfl
  have hcommand : Command.ofLine "PRINT" = .print [] := ofLine_counting.2.1
  have hshown : ∀ entry ∈ counterValues 0, entry.1 ≠ [] ∧ entry.2.display?.isSome := by
    decide +kernel
  rw [execute, bind_of_ok (prepare_teller_filler lines hfill hn (Nat.le_refl _) hd _), hword,
    hcommand, perform]
  -- what the next random number is does not matter from here on
  generalize r.next = next
  have hvalue : replaceVariables [] (teller chars n lines next ⟨events, room + 1⟩) =
      .ok [] (teller chars n lines next ⟨events, room + 1⟩) := by
    rw [replaceVariables, bind_of_ok (run_get _)]
    exact bind_of_ok (replaceNames_nil hshown _)
  rw [bind_of_ok hvalue]
  rfl

variable (hzero : '0' ∈ chars)

omit hfill in
include hzero in
/-- Nothing is left of a line of less than `n` of the given characters. -/
theorem prepare_teller_level {text : Text} (h : Level chars n text) (hd : 0 < r.draws)
    (trace : Trace) : prepare text (teller chars n lines r trace) =
      .ok [] (teller chars n lines r.next trace) := by
  obtain ⟨hc, hl⟩ := h
  have hlen := length_grounded_le text
  have hmem : ∀ c ∈ grounded text, c ∈ chars := by
    intro c h
    obtain h | rfl := mem_of_mem_grounded h
    · exact hc c h
    · exact hzero
  rw [prepare_teller lines (by omega) hmem (by omega) hd, cleared, if_neg (by omega),
    if_neg (by omega)]

include hzero

/-- Such a line prints once. -/
theorem execute_teller {text : Text} (h : Level chars n text) (hd : 2 ≤ r.draws) (fuel : Nat)
    (rest : List Text) (events : Array Event) (room : Nat) :
    execute (fuel + 2) text rest (teller chars n lines r ⟨events, room + 1⟩) =
      .ok 0 (teller chars n lines r.next.next ⟨events.push (.print "[SCRIPT]: "), room⟩) := by
  have hn : 0 < n := Nat.lt_of_le_of_lt (Nat.zero_le _) h.2
  have hnext : r.next.draws = r.draws - 1 := rfl
  have hother : Command.ofLine [] = .other [] := ofLine_counting.1
  have hlines : callLines (execute (fuel + 1)) [] [filler (n + 1)]
      (teller chars n lines r.next ⟨events, room + 1⟩) =
        .ok () (teller chars n lines r.next.next
          ⟨events.push (.print "[SCRIPT]: "), room⟩) := by
    rw [callLines, bind_of_ok (run_get _),
      bind_of_ok (execute_teller_print lines hfill hn (by omega) fuel _ events room)]
    rfl
  rw [execute, bind_of_ok (prepare_teller_level lines hzero h (by omega) _), hother, perform,
    bind_of_ok (run_get _)]
  exact bind_of_ok hlines

/-- Steps of such lines print once each. -/
theorem inOrder_teller {steps : List Step} (h : ∀ step ∈ steps, Level chars n step.text)
    (hd : 2 * steps.length ≤ r.draws) (fuel : Nat) (events : Array Event) (room : Nat) :
    ∃ random' events',
      inOrder (fuel + 2) steps (teller chars n lines r ⟨events, room + steps.length⟩) =
        .ok () (teller chars n lines random' ⟨events', room⟩) ∧
      events'.size = events.size + steps.length := by
  induction steps generalizing r events with
  | nil => exact ⟨r, events, rfl, rfl⟩
  | cons step steps ih =>
    simp only [List.length_cons] at hd ⊢
    have hnext : r.next.next.draws = r.draws - 1 - 1 := rfl
    obtain ⟨random', events', hrun, hsize⟩ := ih (r := r.next.next)
      (fun s hs ↦ h s (List.mem_cons_of_mem step hs)) (by omega)
      (events.push (.print "[SCRIPT]: "))
    rw [Array.size_push] at hsize
    refine ⟨random', events', ?_, by omega⟩
    rw [inOrder, ← Nat.add_assoc, bind_of_ok (execute_teller lines hfill hzero
      (h step List.mem_cons_self) (by omega) fuel _ events (room + steps.length))]
    exact hrun

/-- On the way through such lines the machine stays one in which all lines print. -/
theorem along_teller {P : Step → Machine → Prop} {steps : List Step}
    (h : ∀ step ∈ steps, Level chars n step.text) (hd : 2 * steps.length ≤ r.draws) (fuel : Nat)
    (events : Array Event) (room : Nat)
    (hP : ∀ step random trace, 0 < random.draws → Level chars n step.text →
      P step (teller chars n lines random trace)) :
    Along P (fuel + 2) steps (teller chars n lines r ⟨events, room + steps.length⟩) := by
  induction steps generalizing r events with
  | nil => trivial
  | cons step steps ih =>
    simp only [List.length_cons] at hd ⊢
    have hstep := h step List.mem_cons_self
    refine ⟨hP step r _ (by omega) hstep, fun taken m' hx ↦ ?_⟩
    rw [← Nat.add_assoc, execute_teller lines hfill hzero hstep (by omega)] at hx
    obtain rfl := (EStateM.Result.ok.inj hx).2
    have hnext : r.next.next.draws = r.draws - 1 - 1 := rfl
    exact ih (fun s hs ↦ h s (List.mem_cons_of_mem step hs)) (by omega) _

/-- Calling the function prints once for every line, if they are all such lines. -/
theorem callLines_teller (h : ∀ text ∈ lines, Level chars n text)
    (hd : 2 * lines.length ≤ r.draws) (fuel : Nat) : ∃ random' events',
    callLines (execute (fuel + 2)) "A" lines (teller chars n lines r ⟨#[], lines.length⟩) =
        .ok () (teller chars n lines random' ⟨events', 0⟩) ∧
      events'.size = lines.length := by
  have hlength : (wholeSteps lines).length = lines.length := List.length_map _
  have hwhole : ∀ step ∈ wholeSteps lines, Level chars n step.text := by
    intro step hs
    obtain ⟨text, ht, rfl⟩ := List.mem_map.mp hs
    exact h text ht
  have hkept := along_teller (P := FunctionIs "A" lines) (r := r) lines hfill hzero hwhole
    (by omega) fuel #[] 0 fun _ _ _ _ _ ↦ rfl
  obtain ⟨random', events', hrun, hsize⟩ := inOrder_teller (r := r) lines hfill hzero hwhole
    (by omega) fuel #[] 0
  rw [Nat.zero_add, hlength] at hkept hrun
  refine ⟨random', events', (callLines_eq_inOrder hkept).trans hrun, ?_⟩
  rw [hsize, hlength]
  exact Nat.zero_add _

end Telling

/-! ### Calls and the structure of the body -/

/-- The events a result shows. -/
def shownEvents {α : Type} : EStateM.Result (Halt Fault) Machine α → List Event
  | .ok _ m => m.trace.events.toList
  | .error _ m => m.trace.events.toList

/-- The characters of a body, and those that stand for its lines. -/
def Body.signs (body : Body) : List Char := '0' :: '~' :: body.lines.flatten

private theorem Body.level_of_mem {body : Body} {text : Text} (h : text ∈ body.lines) :
    Level body.signs (body.lines.flatten.length + 1) text := by
  have hsub : text.Sublist body.lines.flatten := List.sublist_flatten_of_mem h
  refine ⟨fun c hc ↦ ?_, Nat.lt_succ_of_le hsub.length_le⟩
  exact List.mem_cons_of_mem _ (List.mem_cons_of_mem _ (hsub.subset hc))

/-- A function whose call shows the events of the commands of its body, executed once each in order,
in every machine in which single lines stay single and the function keeps its lines, has no block in
its body. -/
theorem Body.flat_of_call {body : Body}
    (h : ∀ fuel text rest m name m', m.Calls text name body.lines m' →
      Along StaysSingle fuel body.steps m' →
      Along (FunctionIs name body.lines) fuel body.steps m' →
      shownEvents (execute (fuel + 1) text rest m) =
        shownEvents ((inOrder fuel body.steps >>= fun _ ↦ pure 0 : Macro Nat) m')) :
    body.Flat := by
  by_contra hflat
  obtain ⟨-, hmore⟩ := Body.size_lt_of_not_flat hflat
  have hsize : body.steps.length = body.size := body.length_steps
  have hzero : '0' ∈ body.signs := List.mem_cons_self
  have hfill : '~' ∈ body.signs := List.mem_cons_of_mem _ List.mem_cons_self
  have hsteps : ∀ step ∈ body.steps,
      Level body.signs (body.lines.flatten.length + 1) step.text := fun step hs ↦
    Body.level_of_mem (Body.text_mem_lines hs)
  -- two draws and room for an event for each line, and a draw for the call
  let random : Random := ⟨0, 2 * body.lines.length + 1⟩
  have hdraws : random.next.draws = 2 * body.lines.length := rfl
  obtain ⟨spare, hspare⟩ : ∃ spare, body.lines.length = spare + body.steps.length :=
    ⟨body.lines.length - body.size, by omega⟩
  have hcalls := calls_teller body.lines hfill (Nat.succ_pos body.lines.flatten.length)
    (show 0 < random.draws from Nat.succ_pos _) ⟨#[], body.lines.length⟩
  have hsingle := along_teller (P := StaysSingle) (r := random.next) body.lines hfill hzero hsteps
    (by omega) 0 #[] spare fun step random trace hd hs _ line m' hp ↦ by
      rw [prepare_teller_level body.lines hzero hs hd] at hp
      obtain rfl := (EStateM.Result.ok.inj hp).1
      rw [ofLine_counting.1]
      exact id
  have hkept := along_teller (P := FunctionIs "A" body.lines) (r := random.next) body.lines hfill
    hzero hsteps (by omega) 0 #[] spare fun _ _ _ _ _ ↦ rfl
  -- the call prints for every line, the commands of the body print once each
  obtain ⟨random₁, events₁, hcall, hcount₁⟩ := callLines_teller (r := random.next) body.lines hfill
    hzero (fun _ ↦ Body.level_of_mem) (by omega) 0
  obtain ⟨random₂, events₂, hbody, hcount₂⟩ := inOrder_teller (r := random.next) body.lines hfill
    hzero hsteps (by omega) 0 #[] spare
  rw [← hspare] at hsingle hkept hbody
  have heq := h 2 _ [] _ _ _ hcalls hsingle hkept
  rw [execute_of_calls hcalls, bind_of_ok hbody, bind_of_ok hcall] at heq
  have hcounts : events₁.size = events₂.size := congrArg List.length heq
  have hnone : (#[] : Array Event).size = 0 := rfl
  omega

/-- A call of a function without blocks is the execution of the commands of its body once each in
order, in every machine in which single lines stay single (`parseLine`). The call of any other
function shows other events in some such machine that keeps the function. As long as the function
keeps its lines, a call executes every line of the body, those of blocks included, each with the
whole body at hand. -/
theorem call_eq_steps_iff (body : Body) :
    (body.Flat → ∀ fuel text rest m name m', m.Calls text name body.lines m' →
      Along StaysSingle fuel body.steps m' →
      execute (fuel + 1) text rest m = (inOrder fuel body.steps >>= fun _ ↦ pure 0) m') ∧
    ((∀ fuel text rest m name m', m.Calls text name body.lines m' →
        Along StaysSingle fuel body.steps m' →
        Along (FunctionIs name body.lines) fuel body.steps m' →
        shownEvents (execute (fuel + 1) text rest m) =
          shownEvents ((inOrder fuel body.steps >>= fun _ ↦ pure 0 : Macro Nat) m')) →
      body.Flat) ∧
    ∀ fuel text rest m name m', m.Calls text name body.lines m' →
      Along (FunctionIs name body.lines) fuel (wholeSteps body.lines) m' →
      execute (fuel + 1) text rest m =
        (inOrder fuel (wholeSteps body.lines) >>= fun _ ↦ pure 0) m' := by
  have hbind : ∀ {act act' : Macro Unit} {m : Machine}, act m = act' m →
      (act >>= fun _ ↦ pure 0 : Macro Nat) m = (act' >>= fun _ ↦ pure 0 : Macro Nat) m := by
    intro act act' m h
    change EStateM.bind act _ m = EStateM.bind act' _ m
    unfold EStateM.bind
    rw [h]
  refine ⟨?_, Body.flat_of_call, ?_⟩
  · intro hflat fuel text rest m name m' hcalls hsingle
    rw [execute_of_calls hcalls]
    exact hbind (callLines_eq_steps hflat hsingle)
  · intro fuel text rest m name m' hcalls hkept
    rw [execute_of_calls hcalls]
    exact hbind (callLines_eq_inOrder hkept)

/-- A fresh machine with a function. -/
def withFunction (name : Text) (lines : List Text) (random : Random) (room : Nat) : Machine :=
  { functions := [(name, lines)], random, trace := { room } }

private theorem withRandom_withFunction (name : Text) (lines : List Text) (random next : Random)
    (room : Nat) :
    (withFunction name lines random room).withRandom next = withFunction name lines next room :=
  rfl

/-- A trimmed line without dollar signs is understood as it stands. -/
theorem prepare_withFunction {text : Text} (htrim : Text.trim text = text) (hdollar : '$' ∉ text)
    (name : Text) (lines : List Text) {random : Random} (hd : 0 < random.draws) (room : Nat) :
    prepare text (withFunction name lines random room) =
      .ok text (withFunction name lines random.next room) := by
  have hdraw : (withFunction name lines random room).CanDraw :=
    (canDraw_iff_le (k := 5) rfl rfl (by decide) (by decide) (by decide)).mpr (by decide)
  obtain ⟨n, shown, hn⟩ := hdraw
  have hunderstood : (withFunction name lines random room).understood text = text :=
    (understood_of_defines rfl text).trans htrim
  have hnumber : ¬ "$_RANDOM_INT".toList <:+: Text.trim text :=
    not_infix_of_not_mem (htrim.symm ▸ hdollar)
  rw [prepare_of_draws hn hd hnumber, hunderstood, withRandom_withFunction]
  rfl

private theorem calls_withFunction (lines : List Text) {r : Random} (hd : 0 < r.draws)
    (room : Nat) :
    (withFunction "f" lines r room).Calls "f" "f" lines (withFunction "f" lines r.next room) :=
  ⟨prepare_withFunction (by decide +kernel) (by decide) "f" lines hd room, rfl, rfl⟩

/-- A remark and a key. -/
def remarkAndKey : Body := .line "REM x" (.line "ENTER" .done)

/-- The call of a function without a block executes its two commands. -/
theorem call_eq_steps_iff_remarkAndKey : ∃ m',
    (withFunction "f" remarkAndKey.lines ⟨1, 3⟩ 2).Calls "f" "f" remarkAndKey.lines m' ∧
    Along StaysSingle 3 remarkAndKey.steps m' ∧
    execute 4 "f" [] (withFunction "f" remarkAndKey.lines ⟨1, 3⟩ 2) =
      (inOrder 3 remarkAndKey.steps >>= fun _ ↦ pure 0) m' := by
  have hcalls := calls_withFunction remarkAndKey.lines (r := ⟨1, 3⟩) (by decide) 2
  have hremark : Command.ofLine "REM x" = .ignore := by decide +kernel
  have hkey : Command.ofLine "ENTER" = .other "ENTER" := by decide +kernel
  generalize hr : (⟨1, 3⟩ : Random).next = random at hcalls
  have hd : random.draws = 2 := by rw [← hr]; rfl
  have hfirst : prepare "REM x" (withFunction "f" remarkAndKey.lines random 2) =
      .ok "REM x".toList (withFunction "f" remarkAndKey.lines random.next 2) :=
    prepare_withFunction (by decide +kernel) (by decide) _ _ (by omega) _
  have hsecond : prepare "ENTER" (withFunction "f" remarkAndKey.lines random.next 2) =
      .ok "ENTER".toList (withFunction "f" remarkAndKey.lines random.next.next 2) :=
    prepare_withFunction (by decide +kernel) (by decide) _ _ (show 0 < random.draws - 1 by omega) _
  have hignored : ∀ rest, execute 3 "REM x" rest (withFunction "f" remarkAndKey.lines random 2) =
      .ok 0 (withFunction "f" remarkAndKey.lines random.next 2) := by
    intro rest
    rw [execute, bind_of_ok hfirst, hremark]
    rfl
  have hsingle : Along StaysSingle 3 remarkAndKey.steps
      (withFunction "f" remarkAndKey.lines random 2) := by
    refine ⟨fun _ line m' hp ↦ ?_, fun taken m' hx ↦ ⟨fun _ line m'' hp ↦ ?_, fun _ _ _ ↦ trivial⟩⟩
    · obtain rfl := (EStateM.Result.ok.inj (hfirst.symm.trans hp)).1
      rw [hremark]
      exact id
    · obtain rfl := (EStateM.Result.ok.inj ((hignored _).symm.trans hx)).2
      obtain rfl := (EStateM.Result.ok.inj (hsecond.symm.trans hp)).1
      rw [hkey]
      exact id
  have hflat : remarkAndKey.Flat := trivial
  exact ⟨_, hcalls, hsingle,
    (call_eq_steps_iff remarkAndKey).1 hflat 3 _ [] _ _ _ hcalls hsingle⟩

/-- A key in a remark inside a function. -/
def remarkInFunction : Body := .block "REM_BLOCK" ["ENTER"] "END_REM" .done

/-- The remark inside a function is executed: the key is pressed and released, and the last line of
the remark is reported as an unknown key. -/
theorem remark_executed_in_call : ∃ m',
    (withFunction "f" remarkInFunction.lines ⟨1, 4⟩ 3).Calls "f" "f" remarkInFunction.lines m' ∧
    Along StaysSingle 4 remarkInFunction.steps m' ∧
    Along (FunctionIs "f" remarkInFunction.lines) 4 remarkInFunction.steps m' ∧
    shownEvents (execute 5 "f" [] (withFunction "f" remarkInFunction.lines ⟨1, 4⟩ 3)) ≠
      shownEvents ((inOrder 4 remarkInFunction.steps >>= fun _ ↦ pure 0 : Macro Nat) m') := by
  have hthree : (shownEvents
      (execute 5 "f" [] (withFunction "f" remarkInFunction.lines ⟨1, 4⟩ 3))).length = 3 := by
    decide +kernel
  have hnone : (shownEvents ((inOrder 4 remarkInFunction.steps >>= fun _ ↦ pure 0 : Macro Nat)
      (withFunction "f" remarkInFunction.lines (⟨1, 4⟩ : Random).next 3))).length = 0 := by
    decide +kernel
  refine ⟨_, calls_withFunction remarkInFunction.lines (by decide) 3,
    ⟨fun h ↦ absurd h Bool.false_ne_true, fun _ _ _ ↦ trivial⟩, ⟨rfl, fun _ _ _ ↦ trivial⟩,
    fun h ↦ ?_⟩
  rw [h, hnone] at hthree
  exact absurd hthree (by decide)

end Deskhand.Script
