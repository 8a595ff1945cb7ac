import Deskhand.Proofs.LoopBlocks
import Deskhand.Proofs.Editing
import Deskhand.Proofs.IntegerText
import Mathlib.Data.List.Basic

/-!
# When a loop follows the structure of its body

A loop executes the commands of its body once each in order exactly when the body has no nested
block; the lines of a nested block are executed again as lines of the body. That no nested block is
harmless is seen in a machine whose defined words make every line of the body call one and the same
function: the function prints, so the commands executed can be counted.
-/

namespace Deskhand.Script

open Macro

/-! ### A machine in which all lines are alike -/

/-- A text of `n` signs that no command begins with. -/
def filler (n : Nat) : Text := List.replicate n '~'

/-- Defined words that leave nothing of a line but its length, and a meaning for three lengths. -/
def levelling (chars : List Char) (n : Nat) : Table Text :=
  chars.map (fun c ↦ ([c], ['~'])) ++
    [(filler (n + 2), "PRINT".toList), (filler (n + 1), "$i = 1".toList),
      (filler n, "WHILE $i < 1".toList), (['~'], [])]

/-- What the defined words make of a line of a given length. -/
def levelled (n length : Nat) : Text :=
  if length = n + 2 then "PRINT" else if length = n + 1 then "$i = 1"
  else if length = n then "WHILE $i < 1" else []

/-- A text with defined words replaced one after the other. -/
def withDefines (defines : Table Text) (t : Text) : Text :=
  defines.foldl (fun line (word, value) ↦ Text.replaceAll line word value) t

/-- The variables of a machine that draws no number but zero. -/
def counterValues (i : Int) : Table Value :=
  [("$_RANDOM_MIN", .int 0), ("$_RANDOM_MAX", .int 0), ("$i", .int i)]

/-- A machine in which every line of less than `n` of the given characters calls the function
without a name, which ends the loop at hand and prints. -/
def counter (chars : List Char) (n : Nat) (i : Int) (random : Random) (trace : Trace) : Machine :=
  { «variables» := counterValues i,
    defines := levelling chars n,
    functions := [([], [filler (n + 1), filler (n + 2)])],
    random, trace }

/-- A run of filling signs is replaced as a whole. -/
theorem replaceAll_filler_self (n : Nat) (new : Text) :
    Text.replaceAll (filler (n + 1)) (filler (n + 1)) new = new :=
  Text.replaceAll_self (List.cons_ne_nil _ _)

/-- A shorter run of filling signs is left alone. -/
theorem replaceAll_filler_of_lt {k n : Nat} (h : k < n) (new : Text) :
    Text.replaceAll (filler k) (filler n) new = filler k :=
  Text.replaceAll_of_length_lt (by simpa [filler] using h)

/-- A text without filling signs is left alone. -/
theorem replaceAll_filler_of_not_mem {t : Text} (h : '~' ∉ t) (n : Nat) (new : Text) :
    Text.replaceAll t (filler (n + 1)) new = t :=
  Text.replaceAll_of_not_mem h _ _

/-- Replacing single characters by the filling sign. -/
theorem withDefines_chars (chars : List Char) (t : Text) :
    withDefines (chars.map fun c ↦ ([c], ['~'])) t
      = t.map fun c ↦ if c ∈ chars then '~' else c := by
  induction chars generalizing t with
  | nil => simp [withDefines]
  | cons d chars ih =>
    have hstep : withDefines ((d :: chars).map fun c ↦ ([c], ['~'])) t
        = withDefines (chars.map fun c ↦ ([c], ['~'])) (Text.replaceAll t [d] ['~']) := rfl
    have hmap : Text.replaceAll t [d] ['~'] = t.map fun c ↦ if c = d then '~' else c := by
      rw [Text.replaceAll_singleton, List.map_eq_flatMap]
      refine congrArg (List.flatMap · t) (funext fun c ↦ ?_)
      by_cases h : c = d <;> simp [h]
    rw [hstep, ih, hmap, List.map_map]
    refine List.map_congr_left fun c _ ↦ ?_
    by_cases h : c = d
    · simp [h]
    · simp [h]

/-- The defined words make of a line what its length says. -/
private theorem withDefines_levelling {chars : List Char} {t : Text} (hc : ∀ c ∈ t, c ∈ chars)
    {n : Nat} (hn : 0 < n) (hl : t.length ≤ n + 2) :
    withDefines (levelling chars n) t = levelled n t.length := by
  have hfill : withDefines (chars.map fun c ↦ ([c], ['~'])) t = filler t.length := by
    rw [withDefines_chars, List.map_congr_left (g := fun _ ↦ '~') fun c h ↦ if_pos (hc c h)]
    exact List.map_const' ..
  have hstart : withDefines (levelling chars n) t =
      Text.replaceAll (Text.replaceAll (Text.replaceAll (Text.replaceAll (filler t.length)
        (filler (n + 2)) "PRINT") (filler (n + 1)) "$i = 1") (filler n) "WHILE $i < 1") ['~'] [] := by
    rw [← hfill]
    simp only [levelling, withDefines, List.foldl_append, List.foldl_cons, List.foldl_nil]
  obtain ⟨k, rfl⟩ : ∃ k, n = k + 1 := ⟨n - 1, by omega⟩
  rw [hstart]
  generalize t.length = length at hl
  have hprint : '~' ∉ "PRINT".toList := by decide
  have hassign : '~' ∉ "$i = 1".toList := by decide
  have hloop : '~' ∉ "WHILE $i < 1".toList := by decide
  -- the longer texts are told first, and what they become holds no filling sign any more
  obtain rfl | rfl | rfl | hlt : length = k + 1 + 2 ∨ length = k + 1 + 1 ∨ length = k + 1 ∨
      length < k + 1 := by omega
  · rw [replaceAll_filler_self, replaceAll_filler_of_not_mem hprint,
      replaceAll_filler_of_not_mem hprint, Text.replaceAll_of_not_mem hprint, levelled, if_pos rfl]
  · rw [replaceAll_filler_of_lt (by omega), replaceAll_filler_self,
      replaceAll_filler_of_not_mem hassign, Text.replaceAll_of_not_mem hassign, levelled,
      if_neg (by omega), if_pos rfl]
  · rw [replaceAll_filler_of_lt (by omega), replaceAll_filler_of_lt (by omega),
      replaceAll_filler_self, Text.replaceAll_of_not_mem hloop, levelled, if_neg (by omega),
      if_neg (by omega), if_pos rfl]
  · rw [replaceAll_filler_of_lt (by omega), replaceAll_filler_of_lt (by omega),
      replaceAll_filler_of_lt hlt, Text.replaceAll_singleton, levelled, if_neg (by omega),
      if_neg (by omega), if_neg (by omega)]
    simp [filler]

/-- A line before defined words are replaced, the random number being zero. -/
def grounded (text : Text) : Text :=
  Text.replaceAll (Text.trim text) "$_RANDOM_INT".toList "0".toList

/-- A line does not get longer. -/
theorem length_grounded_le (text : Text) : (grounded text).length ≤ text.length := by
  rw [grounded, Text.replaceAll_of_ne_nil (by decide)]
  exact Nat.le_trans (Text.length_replaceFrom_le (by decide) 0) (Text.trim_sublist text).length_le

/-- Nothing comes into a line but the number. -/
theorem mem_of_mem_grounded {text : Text} {c : Char} (h : c ∈ grounded text) :
    c ∈ text ∨ c = '0' := by
  rw [grounded, Text.replaceAll_of_ne_nil (by decide)] at h
  obtain h | h := Text.mem_of_mem_replaceFrom h
  · exact .inl ((Text.trim_sublist text).subset h)
  · exact .inr (List.mem_singleton.1 h)

private theorem grounded_eq_self {text : Text} (hfirst : ∀ c ∈ text.head?, Text.isBlank c = false)
    (hlast : ∀ c ∈ text.getLast?, Text.isBlank c = false) (hd : '$' ∉ text) :
    grounded text = text := by
  rw [grounded, Text.trim_eq_self hfirst hlast]
  exact Text.replaceAll_of_not_mem hd _ _

/-- A run of filling signs stays as it is. -/
theorem grounded_filler (n : Nat) : grounded (filler n) = filler n := by
  have hmem : ∀ c ∈ filler n, c = '~' := fun c h ↦ List.eq_of_mem_replicate h
  refine grounded_eq_self (fun c h ↦ ?_) (fun c h ↦ ?_) fun h ↦ absurd (hmem _ h) (by decide)
  · rw [hmem c (List.mem_of_mem_head? h)]
    exact Text.isBlank_of_visible (by decide)
  · rw [hmem c (List.mem_of_mem_getLast? h)]
    exact Text.isBlank_of_visible (by decide)

private theorem integerText_eq {k : Int} {t : Text} (h : Number.intText? k = some t)
    (m : Machine) : integerText k m = .ok t m := by
  unfold integerText
  rw [h]
  rfl

theorem integerText_zero (m : Machine) : integerText 0 m = .ok "0".toList m :=
  integerText_eq (intText?_of_lt (k := 1) (by decide) (by decide)) m

/-- Nothing is replaced in the empty line, if only the values can be shown. -/
theorem replaceNames_nil {table : Table Value}
    (h : ∀ entry ∈ table, entry.1 ≠ [] ∧ entry.2.display?.isSome) (m : Machine) :
    replaceNames [] table m = .ok [] m := by
  induction table with
  | nil => rfl
  | cons entry table ih =>
    obtain ⟨name, v⟩ := entry
    obtain ⟨hname, hv⟩ := h _ List.mem_cons_self
    obtain ⟨t, ht⟩ := Option.isSome_iff_exists.1 hv
    have hd : display v m = .ok t m := by
      unfold display
      rw [ht]
      rfl
    rw [replaceNames, bind_of_ok hd, Text.replaceAll_of_ne_nil hname]
    exact ih fun entry he ↦ h entry (List.mem_cons_of_mem _ he)

variable {chars : List Char} {n : Nat}

/-- A line is prepared to what its length says, at the cost of a draw. -/
private theorem prepare_counter (hn : 0 < n) {text : Text} (hc : ∀ c ∈ grounded text, c ∈ chars)
    (hl : (grounded text).length ≤ n + 2) (i : Int) (seed : UInt64) (draws : Nat) (trace : Trace) :
    prepare text (counter chars n i ⟨seed, draws + 1⟩ trace) =
      .ok (levelled n (grounded text).length)
        (counter chars n i ⟨Random.advance seed, draws⟩ trace) := by
  have hmin : bound "$_RANDOM_MIN" 0 (counter chars n i ⟨seed, draws + 1⟩ trace)
      = .ok 0 (counter chars n i ⟨seed, draws + 1⟩ trace) := rfl
  have hmax : bound "$_RANDOM_MAX" 65535 (counter chars n i ⟨seed, draws + 1⟩ trace)
      = .ok 0 (counter chars n i ⟨seed, draws + 1⟩ trace) := rfl
  have hdraw : drawBetween 0 0 (counter chars n i ⟨seed, draws + 1⟩ trace)
      = .ok 0 (counter chars n i ⟨Random.advance seed, draws⟩ trace) := by
    have hone : drawBelow ((0 : Int) - 0 + 1).toNat (counter chars n i ⟨seed, draws + 1⟩ trace)
        = .ok 0 (counter chars n i ⟨Random.advance seed, draws⟩ trace) := by
      change EStateM.Result.ok ((Random.advance seed >>> 33).toNat % 1) _ = _
      rw [Nat.mod_one]
      rfl
    rw [drawBetween, if_neg (by decide), bind_of_ok hone]
    rfl
  rw [prepare, bind_of_ok hmin, bind_of_ok hmax, bind_of_ok hdraw,
    bind_of_ok (integerText_zero _), ← withDefines_levelling hc hn hl]
  rfl

private theorem prepare_filler (hn : 0 < n) (ht : '~' ∈ chars) {k : Nat} (hk : k ≤ n + 2) (i : Int)
    (seed : UInt64) (draws : Nat) (trace : Trace) :
    prepare (filler k) (counter chars n i ⟨seed, draws + 1⟩ trace) =
      .ok (levelled n k) (counter chars n i ⟨Random.advance seed, draws⟩ trace) := by
  have hg : grounded (filler k) = filler k := grounded_filler k
  have hlen : (filler k).length = k := List.length_replicate
  have hmem : ∀ c ∈ grounded (filler k), c ∈ chars := by
    intro c hc
    rw [hg] at hc
    rwa [List.eq_of_mem_replicate hc]
  rw [prepare_counter hn hmem (by rw [hg, hlen]; exact hk) i seed draws trace, hg, hlen]

/-- The commands of the lines that levelling leaves. -/
theorem ofLine_counting : Command.ofLine [] = .other [] ∧
    Command.ofLine "PRINT" = .print [] ∧ Command.ofLine "$i = 1" = .assign "$i" "1" ∧
    Command.ofLine "WHILE $i < 1" = .loop "$i < 1" := by decide +kernel

/-- The line of the function that ends the loop at hand. -/
private theorem execute_assign (hn : 0 < n) (ht : '~' ∈ chars) (fuel : Nat) (rest : List Text)
    (i : Int) (seed : UInt64) (draws : Nat) (trace : Trace) :
    execute (fuel + 1) (filler (n + 1)) rest (counter chars n i ⟨seed, draws + 1⟩ trace) =
      .ok 0 (counter chars n 1 ⟨Random.advance seed, draws⟩ trace) := by
  have hcommand : Command.ofLine (levelled n (n + 1)) = .assign "$i" "1" := by
    rw [levelled, if_neg (by omega), if_pos rfl]
    exact ofLine_counting.2.2.1
  have hvalue : Macro.evaluate "1" (counter chars n i ⟨Random.advance seed, draws⟩ trace)
      = .ok (.int 1) (counter chars n i ⟨Random.advance seed, draws⟩ trace) := rfl
  rw [execute, bind_of_ok (prepare_filler hn ht (by omega) i seed draws trace), hcommand, perform,
    bind_of_ok hvalue]
  rfl

/-- The line of the function that prints. -/
private theorem execute_print (hn : 0 < n) (ht : '~' ∈ chars) (fuel : Nat) (rest : List Text)
    (seed : UInt64) (draws : Nat) (events : Array Event) (room : Nat) :
    execute (fuel + 1) (filler (n + 2)) rest
        (counter chars n 1 ⟨seed, draws + 1⟩ ⟨events, room + 1⟩) =
      .ok 0 (counter chars n 1 ⟨Random.advance seed, draws⟩
        ⟨events.push (.print "[SCRIPT]: "), room⟩) := by
  have hcommand : Command.ofLine (levelled n (n + 2)) = .print [] := by
    rw [levelled, if_pos rfl]
    exact ofLine_counting.2.1
  have hdigit : ∀ i : Int, i.natAbs < Nat.pow 10 1 → (Value.int i).display?.isSome := by
    intro i hi
    rw [display?_of_lt hi (by decide)]
    rfl
  have hshown : ∀ entry ∈ counterValues 1, entry.1 ≠ [] ∧ entry.2.display?.isSome := by
    simp only [counterValues, List.forall_mem_cons]
    exact ⟨⟨by decide, hdigit 0 (by decide)⟩, ⟨by decide, hdigit 0 (by decide)⟩,
      ⟨by decide, hdigit 1 (by decide)⟩, List.forall_mem_nil _⟩
  have hvalue : replaceVariables []
      (counter chars n 1 ⟨Random.advance seed, draws⟩ ⟨events, room + 1⟩)
        = .ok [] (counter chars n 1 ⟨Random.advance seed, draws⟩ ⟨events, room + 1⟩) := by
    have hnames := replaceNames_nil hshown
      (counter chars n 1 ⟨Random.advance seed, draws⟩ ⟨events, room + 1⟩)
    rw [replaceVariables, bind_of_ok (run_get _)]
    exact bind_of_ok hnames
  rw [execute, bind_of_ok (prepare_filler hn ht (by omega) 1 seed draws _), hcommand, perform,
    bind_of_ok hvalue]
  rfl

/-- Work that, in any counting machine with enough allowance, prints `count` times and ends the loop
at hand if it prints at all. -/
def Counts (chars : List Char) (n : Nat) {α : Type} (act : Macro α) (count : Nat) : Prop :=
  ∀ i seed draws events room, ∃ a i' seed' events',
    act (counter chars n i ⟨seed, draws + 3 * count⟩ ⟨events, room + count⟩)
      = .ok a (counter chars n i' ⟨seed', draws⟩ ⟨events', room⟩) ∧
    events'.size = events.size + count ∧ i' = if count = 0 then i else 1

/-- A value prints nothing. -/
private theorem Counts.pure {α : Type} (a : α) : Counts chars n (pure a : Macro α) 0 :=
  fun i seed _ events _ ↦ ⟨a, i, seed, events, rfl, rfl, rfl⟩

/-- Work in sequence prints as often as its parts together. -/
private theorem Counts.bind {α β : Type} {act : Macro α} {next : α → Macro β} {j k : Nat}
    (ha : Counts chars n act j) (hn : ∀ a, Counts chars n (next a) k) :
    Counts chars n (act >>= next) (j + k) := by
  intro i seed draws events room
  obtain ⟨a, i₁, seed₁, events₁, h₁, hs₁, hi₁⟩ := ha i seed (draws + 3 * k) events (room + k)
  obtain ⟨b, i₂, seed₂, events₂, h₂, hs₂, hi₂⟩ := hn a i₁ seed₁ draws events₁ room
  refine ⟨b, i₂, seed₂, events₂, ?_, by omega, ?_⟩
  · rw [show draws + 3 * (j + k) = draws + 3 * k + 3 * j by omega,
      show room + (j + k) = room + k + j by omega, bind_of_ok h₁, h₂]
  · rw [hi₂, hi₁]
    by_cases hk : k = 0
    · simp [hk]
    · simp [hk]

/-- Calling the function without a name prints once. -/
private theorem counts_call (hn : 0 < n) (ht : '~' ∈ chars) (fuel : Nat) (rest : List Text)
    (i : Int) (seed : UInt64) (draws : Nat) (events : Array Event) (room : Nat) :
    perform (fuel + 1) (execute (fuel + 1)) rest (.other [])
        (counter chars n i ⟨seed, draws + 2⟩ ⟨events, room + 1⟩) =
      .ok 0 (counter chars n 1 ⟨Random.advance (Random.advance seed), draws⟩
        ⟨events.push (.print "[SCRIPT]: "), room⟩) := by
  have hlines : callLines (execute (fuel + 1)) [] [filler (n + 1), filler (n + 2)]
      (counter chars n i ⟨seed, draws + 2⟩ ⟨events, room + 1⟩) =
        .ok () (counter chars n 1 ⟨Random.advance (Random.advance seed), draws⟩
          ⟨events.push (.print "[SCRIPT]: "), room⟩) := by
    rw [callLines, bind_of_ok (run_get _),
      bind_of_ok (execute_assign hn ht fuel _ i seed (draws + 1) _), callLines,
      bind_of_ok (run_get _), bind_of_ok (execute_print hn ht fuel _ _ draws events room)]
    rfl
  rw [perform, bind_of_ok (run_get _)]
  exact bind_of_ok hlines

/-- A line that the defined words level. -/
def Level (chars : List Char) (n : Nat) (text : Text) : Prop :=
  (∀ c ∈ text, c ∈ chars) ∧ text.length < n

section Counting

variable (hzero : '0' ∈ chars)

include hzero

/-- A levelled line becomes empty. -/
private theorem prepare_level {text : Text} (h : Level chars n text) (i : Int) (seed : UInt64)
    (draws : Nat) (trace : Trace) :
    prepare text (counter chars n i ⟨seed, draws + 1⟩ trace) =
      .ok [] (counter chars n i ⟨Random.advance seed, draws⟩ trace) := by
  obtain ⟨hc, hl⟩ := h
  have hlen := length_grounded_le text
  have hmem : ∀ c ∈ grounded text, c ∈ chars := by
    intro c h
    obtain h | rfl := mem_of_mem_grounded h
    · exact hc c h
    · exact hzero
  rw [prepare_counter (by omega) hmem (by omega), levelled, if_neg (by omega), if_neg (by omega),
    if_neg (by omega)]

variable (ht : '~' ∈ chars)

include ht

/-- A levelled line calls the function without a name, so it prints once. -/
private theorem counts_prepared {text : Text} (h : Level chars n text) {next : Text → Macro Nat}
    {fuel : Nat} {rest : List Text}
    (hnext : next [] = perform (fuel + 1) (execute (fuel + 1)) rest (.other [])) :
    Counts chars n (prepare text >>= next) 1 := by
  intro i seed draws events room
  have hn : 0 < n := Nat.lt_of_le_of_lt (Nat.zero_le _) h.2
  refine ⟨0, 1, Random.advance (Random.advance (Random.advance seed)),
    events.push (.print "[SCRIPT]: "), ?_, Array.size_push _, rfl⟩
  rw [bind_of_ok (prepare_level hzero h i seed (draws + 2) _), hnext]
  exact counts_call hn ht fuel rest i _ draws events room

private theorem counts_execute {text : Text} (h : Level chars n text) (fuel : Nat)
    (rest : List Text) : Counts chars n (execute (fuel + 2) text rest) 1 :=
  counts_prepared hzero ht h
    (congrArg (perform (fuel + 1) (execute (fuel + 1)) rest) ofLine_counting.1)

private theorem counts_openLoop (pass : Nat → Macro Unit) {guard : Text}
    (h : Level chars n (loopLine guard)) (own after : List Text) (fuel : Nat) :
    Counts chars n (openLoop pass guard own after (fuel + 2)) 1 :=
  counts_prepared hzero ht h (by rw [ofLine_counting.1])

/-- Executing levelled lines prints once for every line. -/
private theorem counts_each {lines : List Text} (h : ∀ text ∈ lines, Level chars n text)
    (fuel : Nat) (after : List Text) :
    Counts chars n (each (execute (fuel + 2)) after lines) lines.length := by
  induction lines with
  | nil => exact Counts.pure ()
  | cons line lines ih =>
    rw [each, List.length_cons, Nat.add_comm lines.length]
    exact (counts_execute hzero ht (h line List.mem_cons_self) fuel _).bind fun _ ↦
      ih fun text hm ↦ h text (List.mem_cons_of_mem line hm)

/-- A pass over levelled lines that respects nested blocks prints once for every command. -/
private theorem counts_pass {body : Body} (h : ∀ text ∈ body.lines, Level chars n text) (fuel : Nat)
    (after : List Text) : Counts chars n (body.pass false (fuel + 2) after) body.size := by
  induction body generalizing after with
  | done => exact Counts.pure ()
  | line text rest ih =>
    rw [Body.pass, Body.size, Nat.add_comm rest.size]
    exact (counts_execute hzero ht (h text List.mem_cons_self) fuel _).bind fun _ ↦
      ih (fun text hm ↦ h text (List.mem_cons_of_mem _ hm)) after
  | block opener inner close rest ih =>
    rw [Body.pass, Body.size, Nat.add_comm rest.size]
    refine (counts_execute hzero ht (h opener List.mem_cons_self) fuel _).bind fun _ ↦ ?_
    exact ih (fun text hm ↦ h text (by simp [Body.lines, hm])) after
  | loop guard inner rest _ ih =>
    rw [Body.pass, Body.size, Nat.add_comm rest.size]
    refine (counts_openLoop hzero ht _ (h _ List.mem_cons_self) _ _ fuel).bind fun _ ↦ ?_
    exact ih (fun text hm ↦ h text (by simp [Body.lines, hm])) after

end Counting

/-! ### The loop at hand -/

private theorem evaluate_eq {m : Machine} {t u : Text} {v : Value}
    (hs : substitute m.variables none t = some u) (he : Script.evaluate (expressionText u) = .ok v) :
    Macro.evaluate t m = .ok v m := by
  rw [Macro.evaluate, bind_of_ok (run_get m), hs]
  simp only [Evaluator.eval_calculator, he]
  rfl

/-- The line of a loop as long as no other line of it. -/
private theorem prepare_loopLine (hc : ∀ c ∈ loopLine ['~'], c ∈ chars) (k : Nat) (i : Int)
    (seed : UInt64) (draws : Nat) (trace : Trace) :
    prepare (loopLine (filler (k + 1))) (counter chars (k + 7) i ⟨seed, draws + 1⟩ trace) =
      .ok "WHILE $i < 1".toList (counter chars (k + 7) i ⟨Random.advance seed, draws⟩ trace) := by
  have hmem : ∀ c ∈ loopLine (filler (k + 1)), c ∈ loopLine ['~'] := by
    intro c h
    obtain h | h := List.mem_append.1 h
    · exact List.mem_append_left _ h
    · rw [List.eq_of_mem_replicate h]
      decide
  have hlast : (loopLine (filler (k + 1))).getLast? = some '~' := by
    have hend : filler (k + 1) = filler k ++ ['~'] := List.replicate_succ'
    rw [loopLine_eq, hend, ← List.append_assoc, List.getLast?_concat]
  have hg : grounded (loopLine (filler (k + 1))) = loopLine (filler (k + 1)) := by
    refine grounded_eq_self ?_ ?_ fun h ↦ absurd (hmem _ h) (by decide)
    · intro c h
      obtain rfl : 'W' = c := Option.some.inj h
      exact Text.isBlank_of_visible (by decide)
    · intro c h
      obtain rfl : '~' = c := Option.some.inj (hlast.symm.trans h)
      exact Text.isBlank_of_visible (by decide)
  have hlen : (loopLine (filler (k + 1))).length = k + 7 := by
    rw [loopLine_eq, List.length_append, filler, List.length_replicate, Nat.add_comm]
    rfl
  generalize loopLine (filler (k + 1)) = text at hmem hg hlen ⊢
  have hlevelled : levelled (k + 7) (k + 7) = "WHILE $i < 1".toList := by
    rw [levelled, if_neg (by omega), if_neg (by omega), if_pos rfl]
  have hchars : ∀ c ∈ grounded text, c ∈ chars := fun c h ↦ hc c (hmem c (hg ▸ h))
  rw [prepare_counter (Nat.succ_pos _) hchars (by rw [hg, hlen]; omega), hg, hlen, hlevelled]

private theorem substitute_guard :
    substitute (counterValues 0) none "$i < 1" = some "0 < 1".toList ∧
    substitute (counterValues 1) none "$i < 1" = some "1 < 1".toList := by decide +kernel

private theorem guard_open (chars : List Char) (n : Nat) (random : Random) (trace : Trace) :
    Macro.evaluate "$i < 1" (counter chars n 0 random trace)
      = .ok (.bool true) (counter chars n 0 random trace) := by
  exact evaluate_eq substitute_guard.1 rfl

private theorem guard_closed (chars : List Char) (n : Nat) (random : Random) (trace : Trace) :
    Macro.evaluate "$i < 1" (counter chars n 1 random trace)
      = .ok (.bool false) (counter chars n 1 random trace) := by
  exact evaluate_eq substitute_guard.2 rfl

/-- The loop at hand makes one pass. -/
private theorem openLoop_counter (hc : ∀ c ∈ loopLine ['~'], c ∈ chars) (pass : Nat → Macro Unit)
    (fuel : Nat) {k count : Nat} (hp : Counts chars (k + 7) (pass (fuel + 1)) count)
    (hpos : 0 < count) (own after : List Text) (draws room : Nat) : ∃ seed' events',
      openLoop pass (filler (k + 1)) own after (fuel + 2)
          (counter chars (k + 7) 0 ⟨0, draws + 3 * count + 1⟩ ⟨#[], room + count⟩) =
        .ok (own.length + 1) (counter chars (k + 7) 1 ⟨seed', draws⟩ ⟨events', room⟩) ∧
      events'.size = count := by
  obtain ⟨a, i, seed, events, hrun, hsize, hi⟩ := hp 0 (Random.advance 0) draws #[] room
  rw [if_neg (by omega)] at hi
  subst hi
  refine ⟨seed, events, ?_, by simpa using hsize⟩
  have hloop : asLongAs "$i < 1" (pass (fuel + 1)) (fuel + 2)
      (counter chars (k + 7) 0 ⟨Random.advance 0, draws + 3 * count⟩ ⟨#[], room + count⟩) =
        .ok () (counter chars (k + 7) 1 ⟨seed, draws⟩ ⟨events, room⟩) := by
    rw [asLongAs, bind_of_ok (guard_open _ _ _ _)]
    refine (bind_of_ok hrun).trans ?_
    rw [asLongAs, bind_of_ok (guard_closed _ _ _ _)]
    rfl
  rw [openLoop, bind_of_ok (prepare_loopLine hc k 0 0 (draws + 3 * count) _), ofLine_counting.2.2.2]
  exact bind_of_ok hloop

/-- A loop that respects the blocks in its body, whatever the guard, has a balanced body. -/
theorem Body.balanced_of_structured {body : Body}
    (h : ∀ guard rest fuel, execute fuel (loopLine guard) (body.lines ++ endLine :: rest)
      = body.asLoop false guard rest fuel) : Balanced body.lines := by
  refine balanced_of_loopBody fun rest ↦ ?_
  -- the guard fails at once, so all that shows of the loop is how many lines it took
  have hp : prepare (loopLine (filler 1)) (counter (loopLine ['~']) 7 1 ⟨0, 1⟩ ⟨#[], 0⟩) = _ :=
    prepare_loopLine (fun _ hc ↦ hc) 0 1 0 0 ⟨#[], 0⟩
  have hcode : execute 1 (loopLine (filler 1)) (body.lines ++ endLine :: rest)
      (counter (loopLine ['~']) 7 1 ⟨0, 1⟩ ⟨#[], 0⟩) =
        .ok (loopBody 1 (body.lines ++ endLine :: rest)).2
          (counter (loopLine ['~']) 7 1 ⟨Random.advance 0, 0⟩ ⟨#[], 0⟩) := by
    have hloop : loopWhile (execute 0) "$i < 1" (loopBody 1 (body.lines ++ endLine :: rest)).1 1
        (counter (loopLine ['~']) 7 1 ⟨Random.advance 0, 0⟩ ⟨#[], 0⟩) =
          .ok () (counter (loopLine ['~']) 7 1 ⟨Random.advance 0, 0⟩ ⟨#[], 0⟩) := by
      rw [loopWhile, bind_of_ok (guard_closed _ _ _ _)]
      rfl
    rw [execute, bind_of_ok hp, ofLine_counting.2.2.2]
    exact bind_of_ok hloop
  have hstructured : body.asLoop false (filler 1) rest 1
      (counter (loopLine ['~']) 7 1 ⟨0, 1⟩ ⟨#[], 0⟩) =
        .ok (body.lines.length + 1)
          (counter (loopLine ['~']) 7 1 ⟨Random.advance 0, 0⟩ ⟨#[], 0⟩) := by
    have hloop : asLongAs "$i < 1" (body.pass false 0 []) 1
        (counter (loopLine ['~']) 7 1 ⟨Random.advance 0, 0⟩ ⟨#[], 0⟩) =
          .ok () (counter (loopLine ['~']) 7 1 ⟨Random.advance 0, 0⟩ ⟨#[], 0⟩) := by
      rw [asLongAs, bind_of_ok (guard_closed _ _ _ _)]
      rfl
    rw [Body.asLoop, openLoop, bind_of_ok hp, ofLine_counting.2.2.2]
    exact bind_of_ok hloop
  rw [← h, hcode] at hstructured
  exact (EStateM.Result.ok.inj hstructured).1

/-- Besides, the body has no nested block. -/
theorem Body.flat_of_structured {body : Body}
    (h : ∀ guard rest fuel, execute fuel (loopLine guard) (body.lines ++ endLine :: rest)
      = body.asLoop false guard rest fuel) : body.Flat := by
  by_contra hflat
  obtain ⟨hpos, hmore⟩ := Body.size_lt_of_not_flat hflat
  obtain ⟨extra, hextra⟩ : ∃ extra, body.lines.length = body.size + extra :=
    ⟨body.lines.length - body.size, by omega⟩
  let total := body.lines.flatten.length
  let chars := '0' :: (loopLine ['~'] ++ body.lines.flatten)
  have hzero : '0' ∈ chars := List.mem_cons_self
  have hline : ∀ c ∈ loopLine ['~'], c ∈ chars := fun c hc ↦
    List.mem_cons_of_mem _ (List.mem_append_left _ hc)
  have hlevel : ∀ text ∈ body.lines, Level chars (total + 7) text := by
    intro text ht
    have hsub : text.Sublist body.lines.flatten := List.sublist_flatten_of_mem ht
    refine ⟨fun c hc ↦ List.mem_cons_of_mem _ (List.mem_append_right _ (hsub.subset hc)), ?_⟩
    exact Nat.lt_of_le_of_lt hsub.length_le (by omega)
  have hfill : '~' ∈ chars := hline '~' (by decide)
  -- with an allowance for every line, the loop prints once for every line
  obtain ⟨_, events₁, hcode, hsize₁⟩ := openLoop_counter hline
    (fun fuel ↦ each (execute fuel) [] body.lines) 1 (counts_each hzero hfill hlevel 0 [])
    (by omega) body.lines [] 0 0
  -- and with the same allowance a structured loop prints once for every command
  obtain ⟨_, events₂, hstructured, hsize₂⟩ := openLoop_counter hline (body.pass false · []) 1
    (counts_pass hzero hfill hlevel 0 []) hpos body.lines [] (3 * extra) extra
  have hdraws : 0 + 3 * body.lines.length + 1 = 3 * extra + 3 * body.size + 1 := by omega
  have hroom : 0 + body.lines.length = extra + body.size := by omega
  rw [← execute_loopLine (Body.balanced_of_structured h), h, Body.asLoop, hdraws, hroom,
    hstructured] at hcode
  have hevents : events₂ = events₁ := congrArg (·.trace.events) (EStateM.Result.ok.inj hcode).2
  rw [hevents, hsize₁] at hsize₂
  omega

/-- A loop executes the commands of its body once each in order, in every machine and whatever its
guard, exactly when the body is balanced and has no nested block (`parseLine`). A balanced body with
nested blocks is gone through with the lines of every such block, the last one included, executed
again. -/
theorem execute_eq_structured_iff (body : Body) :
    ((∀ guard rest fuel, execute fuel (loopLine guard) (body.lines ++ endLine :: rest)
        = body.asLoop false guard rest fuel) ↔ Balanced body.lines ∧ body.Flat) ∧
      (Balanced body.lines → body.Bracketed → ∀ guard rest fuel,
        execute fuel (loopLine guard) (body.lines ++ endLine :: rest)
          = body.asLoop true guard rest fuel) := by
  refine ⟨⟨fun h ↦ ⟨Body.balanced_of_structured h, Body.flat_of_structured h⟩, ?_⟩, ?_⟩
  · rintro ⟨hl, hf⟩ guard rest fuel
    exact Body.execute_eq_asLoop hl hf.bracketed (.inr hf) guard rest fuel
  · intro hl hb guard rest fuel
    exact Body.execute_eq_asLoop hl hb (.inl rfl) guard rest fuel

/-- A loop inside a loop. -/
def nestedLoops : Body := .loop "$j < 2" (.line "$j = $j + 1" .done) (.line "$i = 1" .done)

/-- The two loops are balanced, and executing the outer one goes through the inner one again. -/
theorem execute_eq_structured_iff_nestedLoops : Balanced nestedLoops.lines ∧ nestedLoops.Bracketed ∧
    ∀ guard rest fuel, execute fuel (loopLine guard) (nestedLoops.lines ++ endLine :: rest)
      = nestedLoops.asLoop true guard rest fuel := by
  have hl : Balanced nestedLoops.lines := by decide +kernel
  have hb : nestedLoops.Bracketed := ⟨by decide +kernel, trivial, trivial⟩
  exact ⟨hl, hb, (execute_eq_structured_iff nestedLoops).2 hl hb⟩

/-- A key in a remark inside a loop. -/
def remarkInLoop : Body := .block "REM_BLOCK" ["ENTER"] "END_REM" (.line "$i = 1" .done)

/-- The remark inside a loop is executed: the key is pressed and released, and the last line of the
remark is reported as an unknown key. -/
theorem remark_executed_in_loop :
    execute 3 (loopLine "$i < 1") (remarkInLoop.lines ++ [endLine]) (Machine.fresh 1 5 5)
      ≠ remarkInLoop.asLoop false "$i < 1" [] 3 (Machine.fresh 1 5 5) := by
  let events (r : EStateM.Result (Halt Fault) Machine Nat) : Nat :=
    match r with
    | .ok _ m => m.trace.events.size
    | .error _ m => m.trace.events.size
  have hthree : events (execute 3 (loopLine "$i < 1") (remarkInLoop.lines ++ [endLine])
      (Machine.fresh 1 5 5)) = 3 := by decide +kernel
  have hnone : events (remarkInLoop.asLoop false "$i < 1" [] 3 (Machine.fresh 1 5 5)) = 0 := by
    decide +kernel
  intro h
  rw [h, hnone] at hthree
  exact absurd hthree (by decide)

end Deskhand.Script
