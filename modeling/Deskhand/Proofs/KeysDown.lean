import Deskhand.Hid.KeyReport
import Mathlib.Data.List.Nodup
import Mathlib.Data.List.Basic

/-!
# The keys that are down

Which keys a key report shows as down, and how pressing and releasing change that. Pressing a key
that fits a byte keeps a report well formed and adds at most that key; releasing a key of a
well-formed report leaves it well formed and takes at least that key away.
-/

namespace Deskhand.Hid.KeyReport

/-- The codes a report shows as down: a modifier for each bit, a key for each slot that is taken. -/
def down (r : KeyReport) : List KeyCode :=
  ((List.range 8).filter r.modifiers.toNat.testBit).map (fun i : Nat ↦ 0xE0 + (i : Int))
    ++ r.keys.map fun k ↦ (k.toNat : Int)

private theorem mem_down {r : KeyReport} {code : KeyCode} :
    code ∈ r.down ↔ (∃ i < 8, r.modifiers.toNat.testBit i = true ∧ code = 0xE0 + (i : Int)) ∨
      ∃ k ∈ r.slots, k ≠ 0 ∧ code = (k.toNat : Int) := by
  simp only [down, keys, List.mem_append, List.mem_map, List.mem_filter, List.mem_range,
    decide_eq_true_eq, and_assoc, @eq_comm _ _ code]

/-- No key is down in the empty report. -/
theorem down_empty : empty.down = [] := by decide

/-! ### Slots -/

/-- Slots that hold different keys without gaps, none of them a modifier. -/
def Tidy (slots : List UInt8) : Prop :=
  ∃ keys n, slots = keys ++ List.replicate n 0 ∧ 0 ∉ keys ∧ keys.Nodup ∧
    ∀ k ∈ keys, k < 0xE0 ∨ 0xE7 < k

/-- The keys of slots without gaps are those before the empty slots. -/
theorem filter_taken (keys : List UInt8) (n : Nat) (h : 0 ∉ keys) :
    (keys ++ List.replicate n 0).filter (· ≠ 0) = keys := by
  have hk : keys.filter (· ≠ 0) = keys := by
    apply List.filter_eq_self.mpr
    intro k hk
    have : k ≠ 0 := fun he ↦ h (he ▸ hk)
    simpa using this
  rw [List.filter_append, hk]
  simp

/-- A report is well formed when its slots are tidy. -/
theorem wellFormed_iff_tidy (r : KeyReport) : r.WellFormed ↔ Tidy r.slots := by
  constructor
  · rintro ⟨⟨n, hs⟩, hd, hr⟩
    exact ⟨r.keys, n, hs, by simp [keys], hd, hr⟩
  · rintro ⟨keys, n, hs, h0, hd, hr⟩
    have hk : r.keys = keys := by
      unfold KeyReport.keys
      rw [hs]
      exact filter_taken keys n h0
    exact ⟨⟨n, by rw [hk]; exact hs⟩, by rw [hk]; exact hd, by rw [hk]; exact hr⟩

/-- Where a key goes in slots without gaps. -/
theorem place?_keys (key : UInt8) (keys : List UInt8) (n : Nat) (h : 0 ∉ keys) :
    place? key (keys ++ List.replicate n 0) =
      if key ∈ keys then some (keys ++ List.replicate n 0)
      else match n with
        | 0 => none
        | n + 1 => some (keys ++ key :: List.replicate n 0) := by
  induction keys with
  | nil => cases n <;> simp [place?, List.replicate_succ]
  | cons k rest ih =>
    have hk : k ≠ 0 := fun he ↦ h (by simp [he])
    have hr : 0 ∉ rest := fun he ↦ h (by simp [he])
    rw [List.cons_append, place?, if_neg hk, ih hr]
    by_cases he : k = key
    · subst he
      simp
    · have he' : key ≠ k := fun e ↦ he e.symm
      cases n <;> by_cases hm : key ∈ rest <;> simp [he, he', hm]

/-- Placing a key in tidy slots keeps them tidy and adds no other key. -/
theorem tidy_place? {key : UInt8} {slots placed : List UInt8} (h : Tidy slots)
    (hk : key < 0xE0 ∨ 0xE7 < key) (hp : place? key slots = some placed) :
    Tidy placed ∧ ∀ k ∈ placed, k ≠ 0 → k ∈ slots ∨ k = key := by
  obtain ⟨keys, n, rfl, h0, hd, hr⟩ := h
  rw [place?_keys key keys n h0] at hp
  by_cases hm : key ∈ keys
  · rw [if_pos hm] at hp
    cases hp
    exact ⟨⟨keys, n, rfl, h0, hd, hr⟩, fun k hk _ ↦ .inl hk⟩
  · rw [if_neg hm] at hp
    cases n with
    | zero => cases hp
    | succ n =>
      cases hp
      by_cases hz : key = 0
      · subst hz
        refine ⟨⟨keys, n + 1, by rw [List.replicate_succ], h0, hd, hr⟩, ?_⟩
        intro k hk hne
        refine .inl ?_
        rw [List.replicate_succ]
        exact hk
      · refine ⟨⟨keys ++ [key], n, by simp, ?_, ?_, ?_⟩, ?_⟩
        · simpa [h0] using fun e : (0 : UInt8) = key ↦ hz e.symm
        · rw [List.nodup_append]
          refine ⟨hd, by simp, ?_⟩
          intro a ha b hb he
          have hb : b = key := by simpa using hb
          exact hm (hb ▸ he ▸ ha)
        · intro k hk'
          rcases List.mem_append.mp hk' with hk' | hk'
          · exact hr k hk'
          · rw [List.mem_singleton.mp hk']
            exact hk
        · intro k hk' hne
          rcases List.mem_append.mp hk' with hk' | hk'
          · exact .inl (List.mem_append_left _ hk')
          · rcases List.mem_cons.mp hk' with hk' | hk'
            · exact .inr hk'
            · exact absurd (List.eq_of_mem_replicate hk') hne

/-- When every slot is taken by another key, giving up the first for a new one keeps slots tidy. -/
theorem tidy_tail_append {key : UInt8} {slots : List UInt8} (h : Tidy slots)
    (hk : key < 0xE0 ∨ 0xE7 < key) (hp : place? key slots = none) :
    Tidy (slots.tail ++ [key]) := by
  obtain ⟨keys, n, rfl, h0, hd, hr⟩ := h
  rw [place?_keys key keys n h0] at hp
  by_cases hm : key ∈ keys
  · rw [if_pos hm] at hp
    cases hp
  · rw [if_neg hm] at hp
    cases n with
    | succ n => cases hp
    | zero =>
      have ht : ∀ k ∈ keys.tail, k ∈ keys := fun k hk ↦ List.mem_of_mem_tail hk
      simp only [List.replicate_zero, List.append_nil]
      by_cases hz : key = 0
      · subst hz
        exact ⟨keys.tail, 1, rfl, fun h ↦ h0 (ht 0 h), hd.tail, fun k hk ↦ hr k (ht k hk)⟩
      · refine ⟨keys.tail ++ [key], 0, by simp, ?_, ?_, ?_⟩
        · intro h
          rcases List.mem_append.mp h with h | h
          · exact h0 (ht 0 h)
          · exact hz (List.mem_singleton.mp h).symm
        · rw [List.nodup_append]
          refine ⟨hd.tail, by simp, ?_⟩
          intro a ha b hb he
          have hb : b = key := by simpa using hb
          exact hm (hb ▸ he ▸ ht a ha)
        · intro k hk'
          rcases List.mem_append.mp hk' with hk' | hk'
          · exact hr k (ht k hk')
          · rw [List.mem_singleton.mp hk']
            exact hk

private theorem takeWhile_taken (keys : List UInt8) (n : Nat) (h : 0 ∉ keys) :
    (keys ++ List.replicate n 0).takeWhile (· ≠ 0) = keys := by
  induction keys with
  | nil => cases n <;> simp [List.replicate_succ]
  | cons k rest ih =>
    have hk : k ≠ 0 := fun he ↦ h (by simp [he])
    have hr : 0 ∉ rest := fun he ↦ h (by simp [he])
    simpa [hk] using ih hr

/-- Slots without gaps after a key went up. -/
theorem removeSlot_taken (key : Option UInt8) (keys : List UInt8) (n : Nat) (h : 0 ∉ keys) :
    removeSlot key (keys ++ List.replicate n 0) =
      keys.filter (some · ≠ key) ++
        List.replicate (keys.length - (keys.filter (some · ≠ key)).length + n) 0 := by
  unfold removeSlot
  simp only [takeWhile_taken keys n h]
  rw [List.drop_left, List.append_assoc, List.replicate_append_replicate]

/-- Removing a key from tidy slots leaves them tidy, with exactly the other keys. -/
theorem tidy_removeSlot {slots : List UInt8} (h : Tidy slots) (key : Option UInt8) :
    Tidy (removeSlot key slots) ∧
      ∀ k ∈ removeSlot key slots, k ≠ 0 → k ∈ slots ∧ some k ≠ key := by
  obtain ⟨keys, n, rfl, h0, hd, hr⟩ := h
  rw [removeSlot_taken key keys n h0]
  refine ⟨⟨_, _, rfl, ?_, hd.filter _, ?_⟩, ?_⟩
  · exact fun h ↦ h0 (List.mem_filter.mp h).1
  · exact fun k hk ↦ hr k (List.mem_filter.mp hk).1
  · intro k hk hne
    rcases List.mem_append.mp hk with hk | hk
    · obtain ⟨hk, he⟩ := List.mem_filter.mp hk
      exact ⟨List.mem_append_left _ hk, by simpa using he⟩
    · exact absurd (List.eq_of_mem_replicate hk) hne

/-! ### Modifiers -/

private theorem testBit_toUInt8 (i j : Nat) (hi : i < 8) :
    (Nat.pow 2 i).toUInt8.toNat.testBit j = decide (i = j) := by
  have h : (Nat.pow 2 i).toUInt8.toNat = 2 ^ i := by
    have : 2 ^ i < 2 ^ 8 := Nat.pow_lt_pow_right (by decide) hi
    simpa using Nat.mod_eq_of_lt this
  rw [h, Nat.testBit_two_pow]

private theorem testBit_or_bit (m : UInt8) (i j : Nat) (hi : i < 8) :
    (m ||| (Nat.pow 2 i).toUInt8).toNat.testBit j = (m.toNat.testBit j || decide (i = j)) := by
  rw [UInt8.toNat_or, Nat.testBit_or, testBit_toUInt8 i j hi]

private theorem testBit_and_not_bit (m : UInt8) (i j : Nat) (hi : i < 8) (hj : j < 8) :
    (m &&& ~~~ (Nat.pow 2 i).toUInt8).toNat.testBit j = (m.toNat.testBit j && !decide (i = j)) := by
  have hn : (~~~ (Nat.pow 2 i).toUInt8).toNat.testBit j =
      !((Nat.pow 2 i).toUInt8.toNat.testBit j) := by
    rw [← UInt8.toNat_toBitVec, ← UInt8.toNat_toBitVec, BitVec.testBit_toNat, BitVec.testBit_toNat,
      UInt8.toBitVec_not, BitVec.getLsbD_not]
    simp [hj]
  rw [UInt8.toNat_and, Nat.testBit_and, hn, testBit_toUInt8 i j hi]

/-- The modifiers are the eight codes from `0xE0` on. -/
theorem modifierIndex?_eq_some {code : Int} {i : Nat} :
    modifierIndex? code = some i ↔ i < 8 ∧ code = 0xE0 + (i : Int) := by
  have hm : modifierIndex? code =
      if (0xE0 : Int) ≤ code ∧ code ≤ (0xE7 : Int) then some (code - 0xE0).toNat else none := by
    simp [modifierIndex?]
  rw [hm]
  split
  · rw [Option.some.injEq]
    omega
  · simp only [reduceCtorEq, false_iff]
    omega

/-- Every other code is no modifier. -/
theorem modifierIndex?_eq_none {code : Int} :
    modifierIndex? code = none ↔ code < 0xE0 ∨ 0xE7 < code := by
  have hm : modifierIndex? code =
      if (0xE0 : Int) ≤ code ∧ code ≤ (0xE7 : Int) then some (code - 0xE0).toNat else none := by
    simp [modifierIndex?]
  rw [hm]
  split
  · simp only [reduceCtorEq, false_iff]
    omega
  · simp only [true_iff]
    omega

/-- A code that fits a byte is the number of its byte. -/
theorem byte?_eq_some {code : Int} {key : UInt8} :
    byte? code = some key ↔ code = (key.toNat : Int) := by
  have hk := key.toNat_lt
  have hb : byte? code =
      if (0 : Int) ≤ code ∧ code < (256 : Int) then some code.toNat.toUInt8 else none := by
    simp [byte?]
  rw [hb]
  split
  · have hn : code.toNat.toUInt8.toNat = code.toNat := by
      simpa using Nat.mod_eq_of_lt (show code.toNat < 256 by omega)
    rw [Option.some.injEq, ← UInt8.toNat_inj, hn]
    omega
  · simp only [reduceCtorEq, false_iff]
    omega

/-- A code that is out of range is no byte. -/
theorem byte?_eq_none {code : Int} : byte? code = none ↔ code < 0 ∨ 256 ≤ code := by
  have hbyte : byte? code =
      if (0 : Int) ≤ code ∧ code < (256 : Int) then some code.toNat.toUInt8 else none := by
    simp [byte?]
  rw [hbyte]
  split
  · simp only [reduceCtorEq, false_iff]
    omega
  · simp only [true_iff]
    omega

/-! ### Pressing and releasing -/

/-- Pressing a key that fits a byte is never refused. -/
theorem press_byte_accepted (r : KeyReport) (key : UInt8) : (r.press key.toNat).2 = none := by
  have hb : byte? (key.toNat : Int) = some key := byte?_eq_some.mpr rfl
  unfold press
  split
  · rfl
  · unfold pressSlot
    rw [hb]
    dsimp only
    split <;> rfl

/-- Pressing a key that fits a byte keeps a report well formed and puts no other key down. -/
theorem press_wellFormed {r : KeyReport} (h : r.WellFormed) (key : UInt8) :
    (r.press key.toNat).1.WellFormed ∧
      ∀ c ∈ (r.press key.toNat).1.down, c ∈ r.down ∨ c = key.toNat := by
  unfold press
  split
  · next i hi =>
    obtain ⟨hi, hc⟩ := modifierIndex?_eq_some.mp hi
    refine ⟨(wellFormed_iff_tidy _).mpr ((wellFormed_iff_tidy r).mp h), ?_⟩
    intro c hc'
    rcases mem_down.mp hc' with ⟨j, hj, hb, rfl⟩ | hs
    · rw [testBit_or_bit _ _ _ hi] at hb
      by_cases he : i = j
      · subst he
        exact .inr hc.symm
      · simp only [he, decide_false, Bool.or_false] at hb
        exact .inl (mem_down.mpr (.inl ⟨j, hj, hb, rfl⟩))
    · exact .inl (mem_down.mpr (.inr hs))
  · next hi =>
    have hk : key < 0xE0 ∨ 0xE7 < key := by
      have hc : (key.toNat : Int) < 0xE0 ∨ (0xE7 : Int) < key.toNat := modifierIndex?_eq_none.mp hi
      rw [UInt8.lt_iff_toNat_lt, UInt8.lt_iff_toNat_lt]
      change key.toNat < 0xE0 ∨ 0xE7 < key.toNat
      omega
    have hb : byte? (key.toNat : Int) = some key := byte?_eq_some.mpr rfl
    have ht : Tidy r.slots := (wellFormed_iff_tidy r).mp h
    unfold pressSlot
    rw [hb]
    dsimp only
    split
    · next placed hp =>
      obtain ⟨htidy, hmem⟩ := tidy_place? ht hk hp
      refine ⟨(wellFormed_iff_tidy _).mpr htidy, ?_⟩
      intro c hc
      rcases mem_down.mp hc with hm | ⟨k, hks, hne, rfl⟩
      · exact .inl (mem_down.mpr (.inl hm))
      · rcases hmem k hks hne with hk' | rfl
        · exact .inl (mem_down.mpr (.inr ⟨k, hk', hne, rfl⟩))
        · exact .inr rfl
    · next hp =>
      refine ⟨(wellFormed_iff_tidy _).mpr (tidy_tail_append ht hk hp), ?_⟩
      intro c hc
      rcases mem_down.mp hc with hm | ⟨k, hks, hne, rfl⟩
      · exact .inl (mem_down.mpr (.inl hm))
      · rcases List.mem_append.mp hks with hk' | hk'
        · exact .inl (mem_down.mpr (.inr ⟨k, List.mem_of_mem_tail hk', hne, rfl⟩))
        · rw [List.mem_singleton.mp hk']
          exact .inr rfl

/-- Releasing a key keeps a report well formed and leaves the other keys, at most, down. -/
theorem release_wellFormed {r : KeyReport} (h : r.WellFormed) (code : Int) :
    (r.release code).WellFormed ∧ ∀ c : Int, c ∈ (r.release code).down → c ∈ r.down ∧ c ≠ code := by
  have ht : Tidy r.slots := (wellFormed_iff_tidy r).mp h
  have hreg : ∀ k ∈ r.slots, k ≠ 0 → k < 0xE0 ∨ 0xE7 < k :=
    fun k hk hne ↦ h.regular k (by simp [keys, hk, hne])
  unfold release
  split
  · next i hi =>
    obtain ⟨hi, hcode⟩ := modifierIndex?_eq_some.mp hi
    refine ⟨(wellFormed_iff_tidy _).mpr ht, ?_⟩
    intro c hc
    rcases mem_down.mp hc with ⟨j, hj, hb, rfl⟩ | ⟨k, hks, hne, rfl⟩
    · rw [testBit_and_not_bit _ _ _ hi hj] at hb
      simp only [Bool.and_eq_true, Bool.not_eq_true', decide_eq_false_iff_not] at hb
      refine ⟨mem_down.mpr (.inl ⟨j, hj, hb.1, rfl⟩), ?_⟩
      change (0xE0 + (j : Int)) ≠ code
      omega
    · refine ⟨mem_down.mpr (.inr ⟨k, hks, hne, rfl⟩), ?_⟩
      -- no slot holds a modifier, so this key is not the modifier that went up
      have hk := hreg k hks hne
      rw [UInt8.lt_iff_toNat_lt, UInt8.lt_iff_toNat_lt] at hk
      change k.toNat < 0xE0 ∨ 0xE7 < k.toNat at hk
      change (k.toNat : Int) ≠ code
      omega
  · next hi =>
    obtain ⟨htidy, hmem⟩ := tidy_removeSlot ht (byte? code)
    refine ⟨(wellFormed_iff_tidy _).mpr htidy, ?_⟩
    intro c hc
    rcases mem_down.mp hc with ⟨j, hj, hb, rfl⟩ | ⟨k, hks, hne, rfl⟩
    · have hc : code < 0xE0 ∨ 0xE7 < code := modifierIndex?_eq_none.mp hi
      refine ⟨mem_down.mpr (.inl ⟨j, hj, hb, rfl⟩), ?_⟩
      change (0xE0 + (j : Int)) ≠ code
      omega
    · obtain ⟨hk, hb⟩ := hmem k hks hne
      exact ⟨mem_down.mpr (.inr ⟨k, hk, hne, rfl⟩), fun he ↦ hb (byte?_eq_some.mpr he.symm).symm⟩

end Deskhand.Hid.KeyReport
