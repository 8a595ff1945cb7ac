import Deskhand.Hid.Keyboard
import Deskhand.Proofs.KeysDown
import Deskhand.Proofs.Outcome
import Mathlib.Data.List.Induction

/-!
# The key slots through every call

A keyboard is called with any codes, and a call that is given a code that is no byte fails halfway.
Whatever the calls were, no key stands behind an empty slot. That no key stands in two slots holds
after each call exactly as long as no call meets a code that is no byte while all slots are taken:
there the keys move down before the code is refused, and the last key is left in two slots.
-/

namespace Deskhand.Hid

namespace KeyReport

/-- No key stands behind an empty slot. -/
def Compact (slots : List UInt8) : Prop := slots.Pairwise fun s later ↦ s = 0 → later = 0

/-- No key stands in two slots. -/
def Unique (slots : List UInt8) : Prop := slots.Pairwise fun s later ↦ s = later → s = 0

instance (slots : List UInt8) : Decidable (Unique slots) :=
  inferInstanceAs (Decidable (List.Pairwise _ _))

/-- Whether a code fits a slot. -/
def IsByte (code : Int) : Prop := 0 ≤ code ∧ code < 256

/-- Among codes to be pressed one that is no byte has its turn, when those before it have left no
slot empty. -/
def Overruns (r : KeyReport) (codes : List KeyCode) : Prop :=
  ∃ before code after, codes = before ++ code :: after ∧ (∀ c ∈ before, IsByte c) ∧
    ¬ IsByte code ∧ 0 ∉ (r.pressAll before).1.slots

variable {r : KeyReport} {slots placed : List UInt8} {key : UInt8} {code : Int}
  {codes : List KeyCode}

/-! ### Slots without gaps -/

/-- Slots without gaps are keys followed by empty slots. -/
theorem compact_iff_taken :
    Compact slots ↔ ∃ keys n, slots = keys ++ List.replicate n 0 ∧ 0 ∉ keys := by
  constructor
  · intro h
    induction slots with
    | nil => exact ⟨[], 0, rfl, List.not_mem_nil⟩
    | cons s rest ih =>
      obtain ⟨hs, hrest⟩ := List.pairwise_cons.mp h
      by_cases h0 : s = 0
      · refine ⟨[], rest.length + 1, ?_, List.not_mem_nil⟩
        rw [List.nil_append, List.replicate_succ, h0,
          ← List.eq_replicate_iff.mpr ⟨rfl, fun b hb ↦ hs b hb h0⟩]
      · obtain ⟨keys, n, rfl, hk⟩ := ih hrest
        refine ⟨s :: keys, n, rfl, ?_⟩
        rw [List.mem_cons]
        exact not_or.mpr ⟨fun he ↦ h0 he.symm, hk⟩
  · rintro ⟨keys, n, rfl, hk⟩
    refine List.pairwise_append.mpr ⟨?_, List.pairwise_replicate.mpr (.inr id), ?_⟩
    · exact List.pairwise_of_forall_mem_list fun _ ha _ _ he ↦ absurd (he ▸ ha) hk
    · exact fun _ ha _ _ he ↦ absurd (he ▸ ha) hk

theorem compact_empty : Compact empty.slots :=
  compact_iff_taken.mpr ⟨[], 6, rfl, List.not_mem_nil⟩

private theorem compact_of_full (h : 0 ∉ slots) : Compact slots :=
  List.pairwise_of_forall_mem_list fun _ ha _ _ he ↦ absurd (he ▸ ha) h

theorem compact_place? (h : Compact slots) (hp : place? key slots = some placed) :
    Compact placed := by
  induction slots generalizing placed with
  | nil => cases hp
  | cons s rest ih =>
    obtain ⟨hs, hrest⟩ := List.pairwise_cons.mp h
    simp only [place?] at hp
    split at hp
    · next h0 =>
      cases hp
      exact List.pairwise_cons.mpr ⟨fun b hb _ ↦ hs b hb h0, hrest⟩
    · next h0 =>
      split at hp
      · cases hp
        exact h
      · obtain ⟨placed, hplaced, rfl⟩ := Option.map_eq_some_iff.mp hp
        exact List.pairwise_cons.mpr ⟨fun b _ he ↦ absurd he h0, ih hrest hplaced⟩

/-- A key finds no place only if all slots are taken. -/
theorem zero_not_mem_of_place? (h : place? key slots = none) : 0 ∉ slots := by
  induction slots with
  | nil => exact List.not_mem_nil
  | cons s rest ih =>
    simp only [place?] at h
    split at h
    · cases h
    · next h0 =>
      split at h
      · cases h
      · rw [List.mem_cons]
        exact not_or.mpr ⟨fun he ↦ h0 he.symm, ih (Option.map_eq_none_iff.mp h)⟩

theorem mem_of_mem_shiftDown {k : UInt8} (h : k ∈ shiftDown slots) : k ∈ slots := by
  cases slots with
  | nil => exact h
  | cons s rest =>
    rcases List.mem_append.mp h with h | h
    · exact List.mem_cons_of_mem s h
    · rw [List.mem_singleton.mp h]
      cases rest with
      | nil => exact List.mem_cons_self
      | cons t rest =>
        rw [List.getLastD_cons]
        exact List.mem_cons_of_mem s List.getLastD_mem_cons

theorem compact_removeSlot (h : Compact slots) (key : Option UInt8) :
    Compact (removeSlot key slots) := by
  obtain ⟨keys, n, rfl, hk⟩ := compact_iff_taken.mp h
  rw [removeSlot_taken key keys n hk]
  exact compact_iff_taken.mpr ⟨_, _, rfl, fun h0 ↦ hk (List.mem_filter.mp h0).1⟩

/-! ### One code -/

theorem not_isByte_iff : ¬ IsByte code ↔ code < 0 ∨ 256 ≤ code := by
  unfold IsByte
  omega

private theorem IsByte.exists_key (h : IsByte code) : ∃ key : UInt8, code = key.toNat := by
  obtain ⟨key, hkey⟩ := Option.ne_none_iff_exists'.mp fun hb ↦
    not_isByte_iff.mpr (byte?_eq_none.mp hb) h
  exact ⟨key, byte?_eq_some.mp hkey⟩

/-- A code that is no byte is refused, and moves the keys down if all slots are taken. -/
theorem press_of_not_byte (h : ¬ IsByte code) :
    (r.press code).2 = some .keyNotByte ∧
      (r.press code).1.slots = if 0 ∈ r.slots then r.slots else shiftDown r.slots := by
  have hrange := not_isByte_iff.mp h
  have hm : modifierIndex? code = none := modifierIndex?_eq_none.mpr (by omega)
  unfold press
  rw [hm]
  unfold pressSlot
  rw [byte?_eq_none.mpr hrange]
  dsimp only
  by_cases h0 : 0 ∈ r.slots
  · simp [h0]
  · simp [h0]

/-- Pressing a key leaves no gap, whether its code is refused or not. -/
theorem compact_press (h : Compact r.slots) (code : KeyCode) : Compact (r.press code).1.slots := by
  by_cases hb : IsByte code
  · obtain ⟨key, rfl⟩ := hb.exists_key
    have hbyte : byte? (key.toNat : Int) = some key := byte?_eq_some.mpr rfl
    unfold press
    split
    · exact h
    · unfold pressSlot
      rw [hbyte]
      dsimp only
      split
      · next placed hp => exact compact_place? h hp
      · next hp =>
        have h0 := zero_not_mem_of_place? hp
        refine List.pairwise_append.mpr ⟨h.tail, List.pairwise_singleton _ _, ?_⟩
        exact fun _ ha _ _ he ↦ absurd (he ▸ List.mem_of_mem_tail ha) h0
  · rw [(press_of_not_byte hb).2]
    split
    · exact h
    · next h0 => exact compact_of_full fun hmem ↦ h0 (mem_of_mem_shiftDown hmem)

private theorem compact_release (h : Compact r.slots) (code : KeyCode) :
    Compact (r.release code).slots := by
  unfold release
  split
  · exact h
  · exact compact_removeSlot h _

/-! ### Many codes -/

theorem pressAll_cons_of_byte (h : IsByte code) :
    r.pressAll (code :: codes) = (r.press code).1.pressAll codes := by
  obtain ⟨key, rfl⟩ := h.exists_key
  have hpress : r.press key.toNat = ((r.press key.toNat).1, none) :=
    Prod.ext rfl (press_byte_accepted r key)
  rw [pressAll, hpress]

theorem pressAll_cons_of_not_byte (h : ¬ IsByte code) :
    r.pressAll (code :: codes) = r.press code := by
  have hpress : r.press code = ((r.press code).1, some .keyNotByte) :=
    Prod.ext rfl (press_of_not_byte h).1
  rw [pressAll, hpress]

private theorem compact_pressAll (h : Compact r.slots) (codes : List KeyCode) :
    Compact (r.pressAll codes).1.slots := by
  induction codes generalizing r with
  | nil => exact h
  | cons code rest ih =>
    by_cases hb : IsByte code
    · rw [pressAll_cons_of_byte hb]
      exact ih (compact_press h code)
    · rw [pressAll_cons_of_not_byte hb]
      exact compact_press h code

private theorem compact_releaseAll (h : Compact r.slots) (codes : List KeyCode) :
    Compact (r.releaseAll codes).slots := by
  induction codes generalizing r with
  | nil => exact h
  | cons code rest ih => exact ih (compact_release h code)

theorem not_overruns_nil : ¬ r.Overruns [] := by
  rintro ⟨before, code, after, h, -⟩
  cases before <;> cases h

theorem overruns_cons_of_byte (h : IsByte code) :
    r.Overruns (code :: codes) ↔ (r.press code).1.Overruns codes := by
  constructor
  · rintro ⟨before, c, after, hsplit, hbytes, hc, hfull⟩
    cases before with
    | nil =>
      cases hsplit
      exact absurd h hc
    | cons b before =>
      cases hsplit
      rw [pressAll_cons_of_byte h] at hfull
      exact ⟨before, c, after, rfl, (List.forall_mem_cons.mp hbytes).2, hc, hfull⟩
  · rintro ⟨before, c, after, rfl, hbytes, hc, hfull⟩
    rw [← pressAll_cons_of_byte h] at hfull
    exact ⟨code :: before, c, after, rfl, List.forall_mem_cons.mpr ⟨h, hbytes⟩, hc, hfull⟩

theorem overruns_cons_of_not_byte (h : ¬ IsByte code) :
    r.Overruns (code :: codes) ↔ 0 ∉ r.slots := by
  constructor
  · rintro ⟨before, c, after, hsplit, hbytes, hc, hfull⟩
    cases before with
    | nil => exact hfull
    | cons b before =>
      cases hsplit
      exact absurd (List.forall_mem_cons.mp hbytes).1 h
  · exact fun hfull ↦ ⟨[], code, codes, rfl, List.forall_mem_nil _, h, hfull⟩

/-- Keys that are pressed without an overrun leave a report well formed. -/
theorem wellFormed_pressAll (h : r.WellFormed) (ho : ¬ r.Overruns codes) :
    (r.pressAll codes).1.WellFormed := by
  induction codes generalizing r with
  | nil => exact h
  | cons code rest ih =>
    by_cases hb : IsByte code
    · rw [overruns_cons_of_byte hb] at ho
      rw [pressAll_cons_of_byte hb]
      obtain ⟨key, rfl⟩ := hb.exists_key
      exact ih (press_wellFormed h key).1 ho
    · rw [overruns_cons_of_not_byte hb, not_not] at ho
      have hslots := (press_of_not_byte (r := r) hb).2
      rw [if_pos ho] at hslots
      rw [pressAll_cons_of_not_byte hb, wellFormed_iff_tidy, hslots, ← wellFormed_iff_tidy]
      exact h

theorem wellFormed_releaseAll (h : r.WellFormed) (codes : List KeyCode) :
    (r.releaseAll codes).WellFormed := by
  induction codes generalizing r with
  | nil => exact h
  | cons code rest ih => exact ih (release_wellFormed h code).1

/-- The last key of taken slots is there twice after they moved down. -/
theorem not_unique_shiftDown (h : 0 ∉ slots) (hlen : 1 < slots.length) :
    ¬ Unique (shiftDown slots) := by
  obtain ⟨s, t, rest, rfl⟩ : ∃ s t rest, slots = s :: t :: rest := by
    cases slots with
    | nil => cases hlen
    | cons s rest =>
      cases rest with
      | nil => exact absurd hlen (Nat.lt_irrefl 1)
      | cons t rest => exact ⟨s, t, rest, rfl⟩
  intro hunique
  have hlast : (t :: rest).getLastD s ∈ t :: rest := by
    rw [List.getLastD_cons]
    exact List.getLastD_mem_cons
  have h0 := (List.pairwise_append.mp hunique).2.2 _ hlast _ List.mem_cons_self rfl
  exact h (List.mem_cons_of_mem s (h0 ▸ hlast))

/-- An overrun ends in a failure and leaves a key in two slots. -/
theorem not_unique_of_overruns (h : r.Overruns codes) :
    (r.pressAll codes).2 = some .keyNotByte ∧ ¬ Unique (r.pressAll codes).1.slots := by
  induction codes generalizing r with
  | nil => exact absurd h not_overruns_nil
  | cons code rest ih =>
    by_cases hb : IsByte code
    · rw [pressAll_cons_of_byte hb]
      exact ih ((overruns_cons_of_byte hb).mp h)
    · have hfull := (overruns_cons_of_not_byte hb).mp h
      obtain ⟨hfault, hslots⟩ := press_of_not_byte (r := r) hb
      rw [if_neg hfull] at hslots
      rw [pressAll_cons_of_not_byte hb, hslots]
      exact ⟨hfault, not_unique_shiftDown hfull (by rw [r.size_eq]; decide)⟩

/-- The slots of a well-formed report have no gaps, and no key stands in two of them. -/
theorem WellFormed.unique (h : r.WellFormed) : Unique r.slots := by
  obtain ⟨n, hn⟩ := h.compact
  have h0 : 0 ∉ r.keys := by simp [keys]
  rw [hn]
  refine List.pairwise_append.mpr ⟨?_, ?_, ?_⟩
  · exact h.distinct.imp fun hne he ↦ absurd he hne
  · exact List.pairwise_replicate.mpr (.inr fun _ ↦ rfl)
  · intro a ha b hb he
    rw [he]
    exact List.eq_of_mem_replicate hb

end KeyReport

/-! ### Calls -/

namespace Keyboard

/-- A call of the keyboard. -/
inductive Call where
  | press (codes : List KeyCode)
  | release (codes : List KeyCode)
  | releaseAll
  | tap (codes : List KeyCode)

namespace Call

/-- What a call does. -/
def act : Call → Act KeyReport Unit
  | .press codes => Keyboard.press codes
  | .release codes => Keyboard.release codes
  | .releaseAll => Keyboard.releaseAll
  | .tap codes => Keyboard.tap codes

/-- The keyboard and the trace that a call leaves, whether it fails or not. -/
def after (call : Call) (port : Port KeyReport) : Port KeyReport := leftState (call.act port)

/-- A call presses a code that is no byte when no slot is empty. -/
def Overruns (r : KeyReport) : Call → Prop
  | .press codes | .tap codes => r.Overruns codes
  | .release _ | .releaseAll => False

end Call

/-- The keyboard and the trace after calls one after the other. -/
def afterAll (port : Port KeyReport) (calls : List Call) : Port KeyReport :=
  calls.foldl (fun port call ↦ call.after port) port

open KeyReport (Compact Unique)

variable {port : Port KeyReport}

/-! ### What a call leaves in the slots -/

theorem report_emit (event : Event) (port : Port KeyReport) :
    (leftState (Act.emit event port)).report = port.report := by
  unfold Act.emit
  cases port.trace.room <;> rfl

theorem report_press (codes : List KeyCode) (port : Port KeyReport) :
    (leftState (press codes port)).report = (port.report.pressAll codes).1 := by
  rw [press, bind_of_ok (run_get port)]
  cases port.report.pressAll codes with
  | mk report fault =>
    cases fault with
    | some fault => rfl
    | none => exact report_emit _ ⟨report, port.trace⟩

theorem report_release (codes : List KeyCode) (port : Port KeyReport) :
    (leftState (release codes port)).report = port.report.releaseAll codes :=
  report_emit _ ⟨port.report.releaseAll codes, port.trace⟩

theorem report_releaseAll (port : Port KeyReport) :
    (leftState (releaseAll port)).report = .empty :=
  report_emit _ ⟨.empty, port.trace⟩

/-- Keys that are tapped are all released, unless pressing them ends early. -/
theorem report_tap (codes : List KeyCode) (port : Port KeyReport) :
    (leftState (tap codes port)).report = (port.report.pressAll codes).1 ∨
      (port.report.pressAll codes).2 = none ∧ (leftState (tap codes port)).report = .empty := by
  have hreport := report_press codes port
  cases hpress : press codes port with
  | error halt port' =>
    rw [hpress] at hreport
    rw [tap, bind_of_error hpress]
    exact .inl hreport
  | ok _ port' =>
    rw [tap, bind_of_ok hpress]
    refine .inr ⟨?_, report_releaseAll port'⟩
    rw [press, bind_of_ok (run_get port)] at hpress
    cases hall : port.report.pressAll codes with
    | mk report fault =>
      rw [hall] at hpress
      cases fault with
      | none => rfl
      | some fault => cases hpress

namespace Call

/-- A call leaves no gap. -/
theorem compact_after (call : Call) (h : Compact port.report.slots) :
    Compact (call.after port).report.slots := by
  cases call with
  | press codes =>
    rw [after, act, report_press]
    exact KeyReport.compact_pressAll h codes
  | release codes =>
    rw [after, act, report_release]
    exact KeyReport.compact_releaseAll h codes
  | releaseAll =>
    rw [after, act, report_releaseAll]
    exact KeyReport.compact_empty
  | tap codes =>
    rw [after, act]
    rcases report_tap codes port with htap | ⟨-, htap⟩
    · rw [htap]
      exact KeyReport.compact_pressAll h codes
    · rw [htap]
      exact KeyReport.compact_empty

/-- A call without an overrun leaves a report well formed. -/
theorem wellFormed_after {call : Call} (h : port.report.WellFormed)
    (ho : ¬ call.Overruns port.report) : (call.after port).report.WellFormed := by
  cases call with
  | press codes =>
    rw [after, act, report_press]
    exact KeyReport.wellFormed_pressAll h ho
  | release codes =>
    rw [after, act, report_release]
    exact KeyReport.wellFormed_releaseAll h codes
  | releaseAll =>
    rw [after, act, report_releaseAll]
    exact KeyReport.wellFormed_empty
  | tap codes =>
    rw [after, act]
    rcases report_tap codes port with htap | ⟨-, htap⟩
    · rw [htap]
      exact KeyReport.wellFormed_pressAll h ho
    · rw [htap]
      exact KeyReport.wellFormed_empty

/-- A call with an overrun leaves a key in two slots. -/
theorem not_unique_after {call : Call} (ho : call.Overruns port.report) :
    ¬ Unique (call.after port).report.slots := by
  cases call with
  | press codes =>
    rw [after, act, report_press]
    exact (KeyReport.not_unique_of_overruns ho).2
  | release codes => exact ho.elim
  | releaseAll => exact ho.elim
  | tap codes =>
    obtain ⟨hfault, hunique⟩ := KeyReport.not_unique_of_overruns ho
    rw [after, act]
    rcases report_tap codes port with htap | ⟨hnone, -⟩
    · rw [htap]
      exact hunique
    · rw [hfault] at hnone
      cases hnone

end Call

/-! ### Runs of calls -/

theorem afterAll_concat (port : Port KeyReport) (calls : List Call) (call : Call) :
    afterAll port (calls ++ [call]) = call.after (afterAll port calls) := by
  rw [afterAll, List.foldl_append]
  rfl

private theorem compact_afterAll (h : Compact port.report.slots) (calls : List Call) :
    Compact (afterAll port calls).report.slots := by
  induction calls generalizing port with
  | nil => exact h
  | cons call rest ih => exact ih (call.compact_after h)

private theorem wellFormed_afterAll {calls : List Call} (h : port.report.WellFormed)
    (ho : ∀ done call, done ++ [call] <+: calls → ¬ call.Overruns (afterAll port done).report) :
    (afterAll port calls).report.WellFormed := by
  induction calls using List.reverseRecOn with
  | nil => exact h
  | append_singleton calls call ih =>
    rw [afterAll_concat]
    refine Call.wellFormed_after (ih fun done call' hpre ↦ ?_) (ho calls call List.prefix_rfl)
    exact ho done call' (hpre.trans (List.prefix_append calls [call]))

/-- Whatever calls a new keyboard gets, failing ones included, after each of them no key stands
behind an empty slot (`Keyboard.press`). That no key stands in two slots after any of them holds
exactly if none of them presses a code that is no byte when all slots are taken. -/
theorem slots_unique_iff (calls : List Call) (trace : Trace) :
    (∀ done, done <+: calls → Compact (afterAll ⟨.empty, trace⟩ done).report.slots) ∧
    ((∀ done, done <+: calls → Unique (afterAll ⟨.empty, trace⟩ done).report.slots) ↔
      ∀ done call, done ++ [call] <+: calls →
        ¬ call.Overruns (afterAll ⟨.empty, trace⟩ done).report) := by
  have hempty : KeyReport.WellFormed .empty := KeyReport.wellFormed_empty
  refine ⟨fun done _ ↦ compact_afterAll KeyReport.compact_empty done, ?_, ?_⟩
  · intro hunique done call hpre ho
    have hafter := hunique _ hpre
    rw [afterAll_concat] at hafter
    exact Call.not_unique_after ho hafter
  · intro ho done hpre
    refine (wellFormed_afterAll hempty fun before call hbefore ↦ ?_).unique
    exact ho before call (hbefore.trans hpre)

/-- Six keys are down when a code is pressed that is no byte. It is refused, and the last of the six
keys is left in two slots. -/
theorem refused_key_doubles_last :
    (afterAll ⟨.empty, { room := 3000 }⟩ [.press [4, 5, 6, 7, 8, 9], .press [256]]).report.slots =
        [5, 6, 7, 8, 9, 9] ∧
      ¬ Unique (afterAll ⟨.empty, { room := 3000 }⟩
        [.press [4, 5, 6, 7, 8, 9], .press [256]]).report.slots := by
  have hslots : (afterAll ⟨.empty, { room := 3000 }⟩
      [.press [4, 5, 6, 7, 8, 9], .press [256]]).report.slots = [5, 6, 7, 8, 9, 9] := by decide
  rw [hslots]
  exact ⟨rfl, by decide⟩

end Keyboard

end Deskhand.Hid
