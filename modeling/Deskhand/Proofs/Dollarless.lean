import Deskhand.Proofs.BoundsIndependence
import Deskhand.Proofs.DefinedWords
import Deskhand.Proofs.LoopBlocks

/-!
# Runs without dollar signs

Scripts without dollar signs name no variables and set none. So after any of them a machine has the
variables of a fresh one, and neither the values of its defined words nor the lines of its functions
have a dollar sign. In such a machine a number can always be drawn, and a line without dollar signs
is prepared by replacing the defined words.
-/

namespace Deskhand.Script

open Macro

/-! ### Work that stays within bounds -/

section Stays

variable {α β : Type} {I : Machine → Prop}

/-- Work that begins in a machine of `I` ends in one, if its allowance lasts. -/
structure Stays (I : Machine → Prop) (act : Macro α) : Prop where
  ends : ∀ m, I m → Ends (fun _ ↦ I) I (act m)

namespace Stays

private theorem of_keeps {R : Machine → Machine → Prop} {act : Macro α} (h : Keeps R act)
    (hR : ∀ m m', R m m' → I m → I m') : Stays I act :=
  ⟨fun m hm ↦ (h.ends m).mono (fun _ m' hr ↦ hR m m' hr hm) fun m' hr ↦ hR m m' hr hm⟩

/-- A value stays. -/
theorem pure (a : α) : Stays I (pure a : Macro α) := ⟨fun _ hm ↦ .ok hm⟩

/-- Work in sequence stays if its parts do. -/
theorem bind {act : Macro α} {next : α → Macro β} (ha : Stays I act) (hn : ∀ a, Stays I (next a)) :
    Stays I (act >>= next) :=
  ⟨fun m hm ↦ Ends.seq (ha.ends m hm) fun a m' hm' ↦ (hn a).ends m' hm'⟩

/-- Work that looks at the machine stays if it does so in every machine of `I`. -/
theorem get {next : Machine → Macro β} (hn : ∀ m, I m → Stays I (next m)) :
    Stays I (get >>= next) :=
  ⟨fun m hm ↦ (hn m hm).ends m hm⟩

/-- A change stays if it leads from `I` to `I`. -/
theorem modify {f : Machine → Machine} (h : ∀ m, I m → I (f m)) :
    Stays I (modify f : Macro PUnit) := ⟨fun m hm ↦ .ok (h m hm)⟩

/-- Going on after a failure stays if the work and the handling do. -/
theorem recover {act : Macro Unit} (ha : Stays I act) {handle : Fault → Macro Unit}
    (hh : ∀ fault, Stays I (handle fault)) : Stays I (Macro.recover act handle) := by
  refine ⟨fun m hm ↦ ?_⟩
  have hends := ha.ends m hm
  unfold Macro.recover
  generalize act m = r at hends
  cases hends with
  | ok h => exact .ok h
  | exhausted => exact .exhausted
  | failed h =>
    dsimp only
    split
    · exact .failed h
    · exact (hh _).ends _ h

end Stays

end Stays

/-! ### Runs without dollar signs -/

/-- Neither the values of defined words nor the lines of functions have a dollar sign, and the
variables are those of a fresh machine. -/
structure Machine.Dollarless (m : Machine) : Prop where
  values : ∀ entry ∈ m.defines, '$' ∉ entry.2
  lines : ∀ entry ∈ m.functions, ∀ line ∈ entry.2, '$' ∉ line
  usual : m.variables = (Machine.fresh 0 0 0).variables

/-- Outward work has nothing to do with dollar signs. -/
theorem Machine.Dollarless.of_outward {m m' : Machine} (h : Outward m m') (hm : m.Dollarless) :
    m'.Dollarless := by
  obtain ⟨keyboard, media, random, trace, rfl⟩ := h
  exact ⟨hm.values, hm.lines, hm.usual⟩

/-- A draw has nothing to do with dollar signs. -/
theorem Machine.Dollarless.withRandom {m : Machine} (hm : m.Dollarless) (random : Random) :
    (m.withRandom random).Dollarless := ⟨hm.values, hm.lines, hm.usual⟩

/-- The value of a definition is made of characters of its line. -/
theorem mem_of_mem_definition {line : Text} {c : Char} (h : c ∈ (Command.definition line).2) :
    c ∈ line := by
  unfold Command.definition at h
  rw [List.span_eq_takeWhile_dropWhile] at h
  split at h
  · exact h
  · next rest heq =>
    have hrest : ∀ c ∈ rest, c ∈ line := fun c hc ↦ by
      have hsub : line.dropWhile (· != ' ') <:+ line := List.dropWhile_suffix _
      rw [(Prod.mk.inj heq).2] at hsub
      exact hsub.subset (List.mem_cons_of_mem _ hc)
    rw [List.span_eq_takeWhile_dropWhile] at h
    split at h
    · exact h
    · next value heq =>
      have hsub : rest.dropWhile (· != ' ') <:+ rest := List.dropWhile_suffix _
      rw [(Prod.mk.inj heq).2] at hsub
      exact hrest c (hsub.subset (List.mem_cons_of_mem _ h))

variable {m : Machine} {text : Text}

/-- In a machine without dollar signs, a line without them is understood as one. -/
theorem Machine.Dollarless.understood (hm : m.Dollarless) (ht : '$' ∉ text) :
    '$' ∉ m.understood text := by
  have htrim : '$' ∉ Text.trim text := fun h ↦ ht ((Text.trim_sublist text).subset h)
  refine Machine.understood_induction (P := ('$' ∉ ·)) htrim fun entry he t ht h ↦ ?_
  rcases Text.mem_of_mem_replaceAll h with h | h
  · exact ht h
  · exact hm.values entry he h

/-- The bounds of a machine without dollar signs are those of a fresh one. -/
theorem Machine.Dollarless.bounds (hm : m.Dollarless) :
    m.variables.get? minName = some (.int 0) ∧ m.variables.get? maxName = some (.int 65535) := by
  rw [hm.usual]
  exact ⟨rfl, rfl⟩

/-- In a machine without dollar signs a number can be drawn. -/
theorem Machine.Dollarless.canDraw (hm : m.Dollarless) : m.CanDraw :=
  (canDraw_iff_le (k := 5) hm.bounds.1 hm.bounds.2 (by decide) (by decide) (by decide)).mpr
    (by decide)

namespace Macro

/-- A line without dollar signs is prepared, if there is a number left to draw. -/
theorem prepare_of_dollarless (hm : m.Dollarless) (ht : '$' ∉ text) (hd : 0 < m.random.draws) :
    prepare text m = .ok (m.understood text) (m.withRandom m.random.next) := by
  obtain ⟨n, shown, hn⟩ := hm.canDraw
  exact prepare_of_draws hn hd fun h ↦
    ht ((Text.trim_sublist text).subset (h.subset List.mem_cons_self))

private theorem ends_prepare (hm : m.Dollarless) (ht : '$' ∉ text) :
    Ends (fun line m' ↦ '$' ∉ line ∧ m'.Dollarless) Machine.Dollarless (prepare text m) := by
  by_cases hd : 0 < m.random.draws
  · rw [prepare_of_dollarless hm ht hd]
    exact .ok ⟨hm.understood ht, hm.withRandom _⟩
  · obtain ⟨n, shown, hn⟩ := hm.canDraw
    rw [prepare_exhausted hn (by omega)]
    exact .exhausted

/-- The single command of a line without dollar signs. -/
theorem stays_perform {line : Text} (hl : '$' ∉ line) (hs : (Command.ofLine line).IsSingle)
    {rest : List Text} (hr : ∀ line ∈ rest, '$' ∉ line) (fuel : Nat)
    (execute : Text → List Text → Macro Nat) :
    Stays Machine.Dollarless (perform fuel execute rest (Command.ofLine line)) := by
  have hline := Command.takenFrom_ofLine line
  cases hc : Command.ofLine line with
  | assign name e =>
    rw [hc] at hline
    exact absurd hline hl
  | define name value =>
    rw [hc] at hline
    have hvalue : '$' ∉ value := fun h ↦ hl (mem_of_mem_definition (hline.2 ▸ h))
    refine .bind (.modify fun m hm ↦ ⟨fun entry he ↦ ?_, hm.lines, hm.usual⟩) fun _ ↦ .pure 0
    rcases mem_put he with he | rfl
    · exact hm.values entry he
    · exact hvalue
  | function name =>
    cases name with
    | none => exact ⟨fun _ hm ↦ .failed hm⟩
    | some name =>
      refine .bind (.modify fun m hm ↦ ⟨hm.values, fun entry he ↦ ?_, hm.usual⟩) fun _ ↦ ?_
      · rcases mem_put he with he | rfl
        · exact hm.lines entry he
        · intro l h
          have hsub : ∀ p, (rest.map Text.trim).takeWhile p <+: rest.map Text.trim := fun _ ↦
            List.takeWhile_prefix _
          obtain ⟨raw, hraw, rfl⟩ := List.mem_map.mp ((hsub _).subset h)
          exact fun hd ↦ hr raw hraw ((Text.trim_sublist raw).subset hd)
      · split
        · exact .pure _
        · exact ⟨fun _ hm ↦ .failed hm⟩
  | defaultDelay t =>
    refine .bind (.of_keeps (keeps_ofExcept _ _) fun _ _ ↦ Machine.Dollarless.of_outward) fun n ↦ ?_
    exact .bind (.modify fun m hm ↦ ⟨hm.values, hm.lines, hm.usual⟩) fun _ ↦ .pure 0
  | _ =>
    rw [← hc]
    refine .of_keeps (outward_perform hs ?_ fuel execute rest) fun _ _ ↦ Machine.Dollarless.of_outward
    rw [hc]
    exact id

end Macro

/-- Runs of lines without dollar signs stay without them. -/
theorem stays_dollarless : TwoRuns ('$' ∉ ·) Eq (fun m m' ↦ m' = m ∧ m.Dollarless)
    fun act _ ↦ Stays Machine.Dollarless act where
  pure := .pure
  bind := .bind
  get hn := .get fun m hm ↦ hn m m ⟨rfl, hm⟩
  exhausted := ⟨fun _ _ ↦ .exhausted⟩
  spare hf := nomatch hf
  pred hf := ⟨_, hf.symm, rfl⟩
  succ hf := congrArg (· + 1) hf
  functions hm := by rw [hm.1]
  stored hm _ _ hb := hm.2.lines _ (mem_of_get? hb)
  draws hm := by rw [hm.1]
  allowance hm := by rw [hm.1]
  evaluate t := .of_keeps (keeps_evaluate keeps_calculator t) fun _ _ ↦ .of_outward
  prepare ht _ _ hn := ⟨fun m hm ↦ Ends.bind ((ends_prepare hm ht).mono
    (fun line m' h ↦ (hn line h.1).ends m' h.2) fun _ h ↦ h)⟩
  single hp hs _ hr fuel _ execute _ := stays_perform hp hs hr fuel execute
  keys line := .of_keeps (outward_pressLine line) fun _ _ ↦ .of_outward
  readInt _ := .of_keeps (keeps_ofExcept _ _) fun _ _ ↦ .of_outward
  pause := .of_keeps (keeps_defaultPause outward_unobserved) fun _ _ ↦ .of_outward
  nil := List.not_mem_nil
  text {raw} hr h :=
    have htake : raw.takeWhile (· != '#') <+: raw := List.takeWhile_prefix _
    hr (htake.subset ((Text.trim_sublist _).subset h))
  print line := .of_keeps (keeps_print outward_unobserved line) fun _ _ ↦ .of_outward
  recover := .recover

/-- The lines of a text are parts of it. -/
theorem infix_of_mem_lines {t line : Text} (h : line ∈ Text.lines t) : line <:+: t := by
  have hfrom : ∀ (t current : Text) after, line ∈ Text.linesFrom current after t →
      line <:+: current.reverse ++ t := by
    intro t
    induction t with
    | nil =>
      intro current after h
      rw [Text.linesFrom] at h
      split at h
      · cases h
      · obtain rfl := List.mem_singleton.mp h
        exact (List.prefix_append _ _).isInfix
    | cons c t ih =>
      intro current after h
      rw [Text.linesFrom] at h
      have hrest : ∀ after, line ∈ Text.linesFrom [] after t →
          line <:+: current.reverse ++ c :: t := fun after h ↦
        (ih [] after h).trans ⟨current.reverse ++ [c], [], by simp⟩
      split at h
      · exact hrest _ h
      · split at h
        · rcases List.mem_cons.mp h with rfl | h
          · exact (List.prefix_append _ _).isInfix
          · exact hrest _ h
        · have hmem := ih (c :: current) false h
          rwa [List.reverse_cons, List.append_assoc] at hmem
  exact hfrom t [] false h

/-- After scripts without dollar signs, a fresh machine has none. -/
theorem dollarless_of_runAll {scripts : List Text} (hs : ∀ t ∈ scripts, '$' ∉ t) {seed : UInt64}
    {room draws : Nat}
    (h : Job.runAll (scripts.map .script) (Machine.fresh seed room draws) = .ok () m) :
    m.Dollarless := by
  have hlines : ∀ j ∈ scripts.map Job.script, ∀ line ∈ j.lines, '$' ∉ line := by
    intro j hj line hl hd
    obtain ⟨t, ht, rfl⟩ := List.mem_map.mp hj
    exact hs t ht ((infix_of_mem_lines hl).subset hd)
  have hends := (stays_dollarless.runAll hlines).ends (Machine.fresh seed room draws)
    ⟨fun _ he ↦ absurd he List.not_mem_nil, fun _ he ↦ absurd he List.not_mem_nil, rfl⟩
  rw [h] at hends
  cases hends with
  | ok hm => exact hm

end Deskhand.Script
