import Deskhand.Proofs.KeyLine
import Mathlib.Data.List.Dedup
import Mathlib.Data.List.Perm.Subperm

/-!
# What a line of keys leaves down

A report has six slots. A key that finds all of them taken pushes out the key that was pressed
first, so a line of more than six keys can release keys that it does not name. What it cannot do is
leave one of its own keys down, or put the keys of others in another order: the slots are a queue,
and releasing a key takes it out of the queue wherever it stands.
-/

namespace Deskhand.Hid.KeyReport

/-- The keys that are down, in the order in which they were pressed, after one more was pressed. -/
def pushed (keys : List UInt8) (key : UInt8) : List UInt8 :=
  if key ∈ keys then keys else if keys.length < 6 then keys ++ [key] else keys.tail ++ [key]

variable {r : KeyReport}

private theorem WellFormed.slots_eq (h : r.WellFormed) :
    r.slots = r.keys ++ List.replicate (6 - r.keys.length) 0 := by
  obtain ⟨n, hn⟩ := h.compact
  have hsize : r.keys.length + n = 6 := by
    have hlength := congrArg List.length hn
    rw [r.size_eq, List.length_append, List.length_replicate] at hlength
    exact hlength.symm
  rw [hn]
  congr 2
  omega

private theorem zero_not_mem_keys (r : KeyReport) : 0 ∉ r.keys := by
  simp [keys]

/-- The keys after a key was pressed that is no modifier. -/
theorem keys_press (h : r.WellFormed) (key : UInt8) (hk : modifierIndex? key.toNat = none)
    (h0 : key ≠ 0) : (r.press key.toNat).1.keys = pushed r.keys key := by
  have hb : byte? (key.toNat : Int) = some key := byte?_eq_some.mpr rfl
  have hplace := place?_keys key r.keys (6 - r.keys.length) (zero_not_mem_keys r)
  have hnew : ∀ keys : List UInt8, 0 ∉ keys → 0 ∉ keys ++ [key] := by
    intro keys hz hmem
    rcases List.mem_append.mp hmem with hmem | hmem
    · exact hz hmem
    · exact h0 (List.mem_singleton.mp hmem).symm
  rw [← h.slots_eq] at hplace
  unfold press
  rw [hk]
  unfold pressSlot
  rw [hb]
  dsimp only
  split
  · next placed hp =>
    rw [hplace] at hp
    change placed.filter (· ≠ 0) = _
    by_cases hmem : key ∈ r.keys
    · rw [if_pos hmem] at hp
      cases hp
      rw [pushed, if_pos hmem]
      rfl
    · rw [if_neg hmem] at hp
      rw [pushed, if_neg hmem]
      cases hleft : 6 - r.keys.length with
      | zero => simp [hleft] at hp
      | succ n =>
        simp only [hleft, Option.some.injEq] at hp
        rw [if_pos (by omega), ← hp, List.append_cons]
        exact filter_taken _ n (hnew r.keys (zero_not_mem_keys r))
  · next hp =>
    rw [hplace] at hp
    by_cases hmem : key ∈ r.keys
    · simp [hmem] at hp
    · rw [if_neg hmem] at hp
      rw [pushed, if_neg hmem]
      cases hleft : 6 - r.keys.length with
      | succ n => simp [hleft] at hp
      | zero =>
        have hslots : r.slots = r.keys := by
          rw [h.slots_eq, hleft]
          exact List.append_nil _
        have htail : 0 ∉ r.keys.tail := fun hz ↦ zero_not_mem_keys r (List.mem_of_mem_tail hz)
        change (r.slots.tail ++ [key]).filter (· ≠ 0) = _
        rw [if_neg (by omega), hslots]
        simpa using filter_taken _ 0 (hnew _ htail)

/-- The keys after a key was released that is no modifier. -/
theorem keys_release (h : r.WellFormed) (key : UInt8) (hk : modifierIndex? key.toNat = none) :
    (r.release key.toNat).keys = r.keys.filter (· ≠ key) := by
  have hb : byte? (key.toNat : Int) = some key := byte?_eq_some.mpr rfl
  have hslots : (r.release key.toNat).slots = removeSlot (some key) r.slots := by
    simp only [release, hk, hb]
  have hkept : 0 ∉ r.keys.filter (some · ≠ some key) := fun hz ↦
    zero_not_mem_keys r (List.mem_filter.mp hz).1
  unfold KeyReport.keys
  rw [hslots, h.slots_eq, removeSlot_taken _ _ _ (zero_not_mem_keys r), filter_taken _ _ hkept,
    filter_taken _ _ (zero_not_mem_keys r)]
  simp

private theorem keys_of_modifier {code : Int} {i : Nat} (hk : modifierIndex? code = some i) :
    (r.press code).1.keys = r.keys ∧ (r.release code).keys = r.keys := by
  unfold press release
  rw [hk]
  exact ⟨rfl, rfl⟩

/-- Pressing a key sets its bit, if it is a modifier. -/
theorem modifiers_press (r : KeyReport) (key : UInt8) : (r.press key.toNat).1.modifiers =
    r.modifiers ||| (modifierBit key.toNat).toUInt8 := by
  have hb : byte? (key.toNat : Int) = some key := byte?_eq_some.mpr rfl
  unfold press modifierBit
  cases modifierIndex? key.toNat with
  | some i => rfl
  | none =>
    unfold pressSlot
    rw [hb]
    dsimp only
    split <;> simp

private theorem modifiers_release (r : KeyReport) (code : KeyCode) : (r.release code).modifiers =
    r.modifiers &&& ~~~ (modifierBit code).toUInt8 := by
  unfold release modifierBit
  cases modifierIndex? code with
  | some i => rfl
  | none => simp

/-! ### Many keys one after the other -/

section Pushed

variable {keys : List UInt8} {key : UInt8} {keep : UInt8 → Bool}

private theorem filter_pushed_sublist (hk : keep key = false) :
    ((pushed keys key).filter keep).Sublist (keys.filter keep) := by
  have hlast : [key].filter keep = [] := by simp [hk]
  unfold pushed
  split
  · exact List.Sublist.refl _
  · split
    · rw [List.filter_append, hlast, List.append_nil]
    · rw [List.filter_append, hlast, List.append_nil]
      exact (List.tail_sublist keys).filter keep

private theorem filter_foldl_pushed_sublist {new : List UInt8} (h : ∀ k ∈ new, keep k = false) :
    ((new.foldl pushed keys).filter keep).Sublist (keys.filter keep) := by
  induction new generalizing keys with
  | nil => exact List.Sublist.refl _
  | cons k new ih =>
    have hrest : ((new.foldl pushed (pushed keys k)).filter keep).Sublist
        ((pushed keys k).filter keep) := ih fun j hj ↦ h j (List.mem_cons_of_mem k hj)
    exact hrest.trans (filter_pushed_sublist (h k List.mem_cons_self))

/-- If all the keys together fit the slots, none is given up. -/
theorem filter_foldl_pushed {new : List UInt8} (h : ∀ k ∈ new, keep k = false) (hd : keys.Nodup)
    (hfit : (keys ++ new).dedup.length ≤ 6) :
    (new.foldl pushed keys).filter keep = keys.filter keep := by
  induction new generalizing keys with
  | nil => rfl
  | cons k new ih =>
    have hnew : ∀ j ∈ new, keep j = false := fun j hj ↦ h j (List.mem_cons_of_mem k hj)
    rw [List.foldl_cons]
    by_cases hmem : k ∈ keys
    · have hfewer : (keys ++ new).dedup.length ≤ (keys ++ k :: new).dedup.length := by
        refine ((List.nodup_dedup _).subperm fun j hj ↦ ?_).length_le
        rw [List.mem_dedup, List.mem_append] at hj ⊢
        exact hj.imp_right (List.mem_cons_of_mem k)
      rw [pushed, if_pos hmem]
      exact ih hnew hd (by omega)
    · -- the keys so far and the new one are different, so there is a slot for it
      have hd' : (keys ++ [k]).Nodup :=
        List.nodup_append.mpr ⟨hd, List.nodup_singleton k, fun a ha b hb he ↦
          hmem (List.mem_singleton.mp hb ▸ he ▸ ha)⟩
      rw [List.append_cons] at hfit
      have hslot : (keys ++ [k]).length ≤ (keys ++ [k] ++ new).dedup.length := by
        refine (hd'.subperm fun j hj ↦ ?_).length_le
        rw [List.mem_dedup]
        exact List.mem_append_left new hj
      rw [List.length_append, List.length_singleton] at hslot
      rw [pushed, if_neg hmem, if_pos (by omega), ih hnew hd' hfit, List.filter_append]
      simp [h k List.mem_cons_self]

end Pushed

end Deskhand.Hid.KeyReport

namespace Deskhand.Script

open Macro

/-! ### Chords -/

/-- The bit that a key sets among the modifiers. -/
def Key.bit : Key → UInt8
  | .key code => (Hid.modifierBit code).toUInt8
  | .media _ => 0

/-- The byte that a key puts into a slot, if it is neither a modifier nor a media key. -/
def Key.slot? : Key → Option UInt8
  | .key code => if Hid.modifierIndex? code = none then some code.toUInt8 else none
  | .media _ => none

/-- Whether a key is a media key. -/
def Key.isMedia : Key → Bool
  | .key _ => false
  | .media _ => true

/-- The bits that keys set among the modifiers. -/
def modifierMask (keys : List Key) : UInt8 := keys.foldr (fun key mask ↦ key.bit ||| mask) 0

/-- The bytes that keys put into slots. -/
def slotKeys (keys : List Key) : List UInt8 := keys.filterMap Key.slot?

private theorem slotKeys_cons (key : Key) (keys : List Key) :
    slotKeys (key :: keys) = key.slot?.toList ++ slotKeys keys := by
  cases h : key.slot? <;> simp [slotKeys, h]

/-- A key that a line can name: its code fits the report it goes into, and is not zero. -/
structure Key.Sound (key : Key) : Prop where
  fits : key.Fits
  slot : key.slot? ≠ some 0

/-- The order of the keys does not matter for their bits. -/
theorem modifierMask_reverse (keys : List Key) : modifierMask keys.reverse = modifierMask keys := by
  have happend : ∀ (keys : List Key) (key : Key),
      modifierMask (keys ++ [key]) = key.bit ||| modifierMask keys := by
    intro keys key
    induction keys with
    | nil => rfl
    | cons first keys ih =>
      change first.bit ||| modifierMask (keys ++ [key]) =
        key.bit ||| (first.bit ||| modifierMask keys)
      rw [ih, ← UInt8.or_assoc, ← UInt8.or_assoc, UInt8.or_comm first.bit]
  induction keys with
  | nil => rfl
  | cons key keys ih =>
    rw [List.reverse_cons, happend, ih]
    rfl

private theorem or_and_not_self (m mask : UInt8) : (m ||| mask) &&& ~~~ mask = m &&& ~~~ mask := by
  apply UInt8.eq_of_toBitVec_eq
  ext i hi
  simp only [UInt8.toBitVec_and, UInt8.toBitVec_or, UInt8.toBitVec_not, BitVec.getElem_and,
    BitVec.getElem_or, BitVec.getElem_not]
  cases m.toBitVec[i] <;> cases mask.toBitVec[i] <;> rfl

private theorem and_not_and_not (m mask more : UInt8) :
    m &&& ~~~ mask &&& ~~~ more = m &&& ~~~ (mask ||| more) := by
  apply UInt8.eq_of_toBitVec_eq
  ext i hi
  simp [Bool.and_assoc]

namespace Reports

variable {r : Reports} {key : Key} {keys : List Key}

/-- What pressing a key does to the reports. -/
theorem after_down (hw : r.keyboard.WellFormed) (hs : key.Sound) :
    (r.after (.down key)).keyboard.WellFormed ∧
    (r.after (.down key)).keyboard.modifiers = r.keyboard.modifiers ||| key.bit ∧
    (r.after (.down key)).keyboard.keys =
      key.slot?.toList.foldl Hid.KeyReport.pushed r.keyboard.keys ∧
    (key.isMedia = false → (r.after (.down key)).media = r.media) := by
  cases key with
  | media code =>
    have hsame : (r.after (.down (.media code))).keyboard = r.keyboard := by rw [after]
    rw [hsame]
    exact ⟨hw, UInt8.or_zero.symm, rfl, fun h ↦ Bool.noConfusion h⟩
  | key code =>
    have hbyte : code.toUInt8.toNat = code := Nat.mod_eq_of_lt hs.fits
    have hwell := (Hid.KeyReport.press_wellFormed hw code.toUInt8).1
    have hbits := Hid.KeyReport.modifiers_press r.keyboard code.toUInt8
    rw [hbyte] at hwell hbits
    refine ⟨hwell, hbits, ?_, fun _ ↦ rfl⟩
    change (r.keyboard.press code).1.keys = _
    cases hi : Hid.modifierIndex? code with
    | some i =>
      rw [(Hid.KeyReport.keys_of_modifier hi).1, Key.slot?,
        if_neg (by rw [hi]; exact Option.some_ne_none i)]
      rfl
    | none =>
      have hslot : (Key.key code).slot? = some code.toUInt8 := if_pos hi
      have h0 : code.toUInt8 ≠ 0 := fun he ↦ hs.slot (hslot.trans (congrArg some he))
      have hkeys := Hid.KeyReport.keys_press hw code.toUInt8 (by rw [hbyte]; exact hi) h0
      rw [hbyte] at hkeys
      rw [hkeys, hslot]
      rfl

/-- What releasing a key does to the reports. -/
theorem after_up (hw : r.keyboard.WellFormed) (hs : key.Sound) :
    (r.after (.up key)).keyboard.WellFormed ∧
    (r.after (.up key)).keyboard.modifiers = r.keyboard.modifiers &&& ~~~ key.bit ∧
    (r.after (.up key)).keyboard.keys =
      r.keyboard.keys.filter (fun k ↦ !key.slot?.toList.contains k) ∧
    (r.after (.up key)).media = if key.isMedia then .empty else r.media := by
  cases key with
  | media code =>
    refine ⟨hw, ?_, ?_, rfl⟩
    · change r.keyboard.modifiers = r.keyboard.modifiers &&& ~~~ 0
      simp
    · exact (List.filter_eq_self.mpr fun _ _ ↦ rfl).symm
  | key code =>
    have hbyte : code.toUInt8.toNat = code := Nat.mod_eq_of_lt hs.fits
    refine ⟨(Hid.KeyReport.release_wellFormed hw code).1,
      Hid.KeyReport.modifiers_release r.keyboard code, ?_, rfl⟩
    change (r.keyboard.release code).keys = _
    cases hi : Hid.modifierIndex? code with
    | some i =>
      rw [(Hid.KeyReport.keys_of_modifier hi).2, Key.slot?,
        if_neg (by rw [hi]; exact Option.some_ne_none i)]
      exact (List.filter_eq_self.mpr fun _ _ ↦ rfl).symm
    | none =>
      have hslot : (Key.key code).slot? = some code.toUInt8 := if_pos hi
      have hkeys := Hid.KeyReport.keys_release hw code.toUInt8 (by rw [hbyte]; exact hi)
      rw [hbyte] at hkeys
      rw [hkeys, hslot]
      refine List.filter_congr fun k _ ↦ ?_
      simp

/-- What pressing keys in order does to the reports. -/
theorem afterAll_down (hw : r.keyboard.WellFormed) (hs : ∀ key ∈ keys, key.Sound) :
    (r.afterAll (keys.map .down)).keyboard.WellFormed ∧
    (r.afterAll (keys.map .down)).keyboard.modifiers =
      r.keyboard.modifiers ||| modifierMask keys ∧
    (r.afterAll (keys.map .down)).keyboard.keys =
      (slotKeys keys).foldl Hid.KeyReport.pushed r.keyboard.keys ∧
    (keys.any Key.isMedia = false → (r.afterAll (keys.map .down)).media = r.media) := by
  induction keys generalizing r with
  | nil => exact ⟨hw, UInt8.or_zero.symm, rfl, fun _ ↦ rfl⟩
  | cons key keys ih =>
    obtain ⟨hwell, hbits, hkeys, hmedia⟩ := after_down hw (hs key List.mem_cons_self)
    obtain ⟨hwell', hbits', hkeys', hmedia'⟩ := ih (r := r.after (.down key)) hwell
      fun k hk ↦ hs k (List.mem_cons_of_mem key hk)
    refine ⟨hwell', ?_, ?_, fun hnone ↦ ?_⟩
    · rw [hbits, UInt8.or_assoc] at hbits'
      exact hbits'
    · rw [hkeys, ← List.foldl_append, ← slotKeys_cons] at hkeys'
      exact hkeys'
    · rw [List.any_cons, Bool.or_eq_false_iff] at hnone
      exact (hmedia' hnone.2).trans (hmedia hnone.1)

/-- What releasing keys in order does to the reports. -/
theorem afterAll_up (hw : r.keyboard.WellFormed) (hs : ∀ key ∈ keys, key.Sound) :
    (r.afterAll (keys.map .up)).keyboard.WellFormed ∧
    (r.afterAll (keys.map .up)).keyboard.modifiers =
      r.keyboard.modifiers &&& ~~~ modifierMask keys ∧
    (r.afterAll (keys.map .up)).keyboard.keys =
      r.keyboard.keys.filter (fun k ↦ !(slotKeys keys).contains k) ∧
    (r.afterAll (keys.map .up)).media = if keys.any Key.isMedia then .empty else r.media := by
  induction keys generalizing r with
  | nil =>
    refine ⟨hw, ?_, (List.filter_eq_self.mpr fun _ _ ↦ rfl).symm, rfl⟩
    change r.keyboard.modifiers = r.keyboard.modifiers &&& ~~~ 0
    simp
  | cons key keys ih =>
    obtain ⟨hwell, hbits, hkeys, hmedia⟩ := after_up hw (hs key List.mem_cons_self)
    obtain ⟨hwell', hbits', hkeys', hmedia'⟩ := ih (r := r.after (.up key)) hwell
      fun k hk ↦ hs k (List.mem_cons_of_mem key hk)
    refine ⟨hwell', ?_, ?_, ?_⟩
    · rw [hbits, and_not_and_not] at hbits'
      exact hbits'
    · rw [hkeys, List.filter_filter] at hkeys'
      refine hkeys'.trans (List.filter_congr fun k _ ↦ ?_)
      rw [slotKeys_cons, List.contains_append, Bool.not_or, Bool.and_comm]
    · refine hmedia'.trans ?_
      rw [hmedia, List.any_cons]
      cases key.isMedia <;> cases keys.any Key.isMedia <;> rfl

/-- What pressing keys in order and releasing them again leaves: the modifiers without those of the
keys, some of the other keys that were down, in their order, and all of them if there was a slot for
every key; a media code that was down only if no media key was pressed. -/
structure Restored (r : Reports) (keys : List Key) (r' : Reports) : Prop where
  wellFormed : r'.keyboard.WellFormed
  modifiers : r'.keyboard.modifiers = r.keyboard.modifiers &&& ~~~ modifierMask keys
  kept : r'.keyboard.keys.Sublist
    (r.keyboard.keys.filter fun k ↦ !(slotKeys keys).contains k)
  allKept : (r.keyboard.keys ++ slotKeys keys).dedup.length ≤ 6 →
    r'.keyboard.keys = r.keyboard.keys.filter fun k ↦ !(slotKeys keys).contains k
  media : r'.media = if keys.any Key.isMedia then .empty else r.media

/-- A chord restores the reports. -/
theorem restored_chord (hw : r.keyboard.WellFormed) (hs : ∀ key ∈ keys, key.Sound) :
    r.Restored keys (r.afterAll (chord keys)) := by
  have hback : ∀ key ∈ keys.reverse, key.Sound := fun key hk ↦ hs key (List.mem_reverse.mp hk)
  obtain ⟨hwell, hbits, hkeys, hmedia⟩ := afterAll_down hw hs
  obtain ⟨hwell', hbits', hkeys', hmedia'⟩ := afterAll_up hwell hback
  have hall : r.afterAll (chord keys) =
      (r.afterAll (keys.map .down)).afterAll (keys.reverse.map .up) := List.foldl_append
  have hslots : (fun k ↦ !(slotKeys keys.reverse).contains k) =
      fun k ↦ !(slotKeys keys).contains k := by
    funext k
    rw [slotKeys, List.filterMap_reverse, List.contains_reverse]
    rfl
  have hout : ∀ k ∈ slotKeys keys, (!(slotKeys keys).contains k) = false := by
    intro k hk
    simp [hk]
  rw [hkeys, hslots] at hkeys'
  rw [hbits, modifierMask_reverse, or_and_not_self] at hbits'
  rw [List.any_reverse] at hmedia'
  rw [← hall] at hwell' hbits' hkeys' hmedia'
  refine ⟨hwell', hbits', ?_, fun hfit ↦ ?_, ?_⟩
  · rw [hkeys']
    exact Hid.KeyReport.filter_foldl_pushed_sublist hout
  · rw [hkeys']
    exact Hid.KeyReport.filter_foldl_pushed hout hw.distinct hfit
  · rw [hmedia']
    cases hnone : keys.any Key.isMedia with
    | true => rfl
    | false => exact hmedia hnone

private theorem length_events (r : Reports) (moves : List Move) :
    (r.events moves).length = moves.length := by
  induction moves generalizing r with
  | nil => rfl
  | cons move moves ih => exact congrArg (· + 1) (ih _)

end Reports

/-! ### Lines of keys -/

/-- The words of a line that may name keys. -/
def keyWords (line : Text) : List Text := (Text.splitOn line " ").filter (!·.isEmpty)

/-- The keys that words name, in order. -/
def namedKeys (words : List Text) : List Key :=
  words.filterMap fun word ↦ Key.ofName? (Text.upper word)

/-- What is printed for the words that name no key. -/
def unknownKeys (words : List Text) : List Event :=
  (words.filter fun word ↦ (Key.ofName? (Text.upper word)).isNone).map fun word ↦
    .print ("Unknown key: <".toList ++ Text.upper word ++ ">".toList)

/-- A word that names a key adds it. -/
theorem namedKeys_of_some {word : Text} {key : Key} (h : Key.ofName? (Text.upper word) = some key)
    (words : List Text) :
    namedKeys (word :: words) = key :: namedKeys words ∧
      unknownKeys (word :: words) = unknownKeys words := by
  simp [namedKeys, unknownKeys, h]

/-- A word that names no key is printed. -/
theorem namedKeys_of_none {word : Text} (h : Key.ofName? (Text.upper word) = none)
    (words : List Text) :
    namedKeys (word :: words) = namedKeys words ∧ unknownKeys (word :: words) =
      .print ("Unknown key: <".toList ++ Text.upper word ++ ">".toList) :: unknownKeys words := by
  simp [namedKeys, unknownKeys, h]

/-- A machine that has told events. -/
def Machine.tells (m : Machine) (events : List Event) : Machine :=
  { m with trace := ⟨m.trace.events ++ events.toArray, m.trace.room - events.length⟩ }

/-- A key with a name is in one of the tables. -/
theorem Key.exists_mem_of_ofName? {name : Text} {key : Key} (h : Key.ofName? name = some key) :
    (∃ entry ∈ scriptKeys ++ Hid.keyNames, key = .key entry.2) ∨
      ∃ entry ∈ scriptMediaKeys, key = .media entry.2 := by
  unfold Key.ofName? at h
  split at h
  · next code hc =>
    obtain ⟨entry, he, rfl⟩ := exists_mem_of_lookupName hc
    exact .inl ⟨entry, List.mem_append_left _ he, (Option.some.inj h).symm⟩
  · split at h
    · next code hc =>
      obtain ⟨entry, he, rfl⟩ := exists_mem_of_lookupName hc
      exact .inr ⟨entry, he, (Option.some.inj h).symm⟩
    · obtain ⟨code, hc, rfl⟩ := Option.map_eq_some_iff.mp h
      obtain ⟨entry, he, rfl⟩ := exists_mem_of_lookupName hc
      exact .inl ⟨entry, List.mem_append_right _ he, rfl⟩

private theorem Machine.moved_tells (m : Machine) (events : List Event) (moves : List Move) :
    (m.tells events).moved moves = { m with
      keyboard := (m.reports.afterAll moves).keyboard
      media := (m.reports.afterAll moves).media
      trace := ⟨m.trace.events ++ (events ++ m.reports.events moves).toArray,
        m.trace.room - (events.length + moves.length)⟩ } := by
  have hevents : m.trace.events ++ (events ++ m.reports.events moves).toArray =
      m.trace.events ++ events.toArray ++ (m.reports.events moves).toArray := by simp
  rw [hevents, Nat.sub_add_eq]
  rfl

private theorem Key.sound_of_ofName? {name : Text} {key : Key} (h : Key.ofName? name = some key) :
    key.Sound := by
  refine ⟨Key.fits_of_ofName? h, ?_⟩
  rcases Key.exists_mem_of_ofName? h with ⟨entry, he, rfl⟩ | ⟨entry, -, rfl⟩
  · have hall : ∀ e ∈ scriptKeys ++ Hid.keyNames, (Key.key e.2).slot? ≠ some 0 := by
      decide +kernel
    exact hall entry he
  · exact (Option.some_ne_none _).symm

namespace Macro

variable {m : Machine}

private theorem tells_tells (m : Machine) (events more : List Event) :
    (m.tells events).tells more = m.tells (events ++ more) := by
  have hevents : m.trace.events ++ events.toArray ++ more.toArray =
      m.trace.events ++ (events ++ more).toArray := by simp
  have hroom : m.trace.room - events.length - more.length =
      m.trace.room - (events ++ more).length := by
    rw [List.length_append, Nat.sub_add_eq]
  rw [Machine.tells, Machine.tells, Machine.tells, ← hevents, ← hroom]

/-- Words are looked up in order, and those that name no key are told. -/
theorem keysOf_eq {words : List Text} (hroom : (unknownKeys words).length ≤ m.trace.room) :
    keysOf words m = .ok (namedKeys words) (m.tells (unknownKeys words)) := by
  induction words generalizing m with
  | nil =>
    have hnone : m.tells [] = m := by
      have hevents : m.trace.events ++ ([] : List Event).toArray = m.trace.events :=
        Array.append_empty
      rw [Machine.tells, hevents]
      rfl
    exact congrArg (EStateM.Result.ok []) hnone.symm
  | cons word words ih =>
    cases hk : Key.ofName? (Text.upper word) with
    | some key =>
      obtain ⟨hkeys, hunknown⟩ := namedKeys_of_some hk words
      have he : keysOf (word :: words) = keysOf words >>= fun keys ↦ pure (key :: keys) := by
        simp [keysOf, hk]
      rw [hunknown] at hroom
      rw [hkeys, hunknown, he, bind_of_ok (ih hroom)]
      rfl
    | none =>
      obtain ⟨hkeys, hunknown⟩ := namedKeys_of_none hk words
      have he : keysOf (word :: words) =
          print ("Unknown key: <".toList ++ Text.upper word ++ ">".toList) >>= fun _ ↦
            keysOf words := by
        simp [keysOf, hk]
      rw [hunknown, List.length_cons] at hroom
      have hleft : (unknownKeys words).length ≤ m.trace.room - 1 := by omega
      rw [hkeys, hunknown, he, bind_of_ok (print_printed (by omega) _), ih hleft,
        ← List.singleton_append, ← tells_tells]
      rfl

end Macro

/-- A line of any words does not fail (`runScriptLine`). It prints the words that name no key, sends
one report for every key that goes down and one for every key that comes up, and restores the
reports. -/
theorem pressLine_restores {m : Machine} (hw : m.keyboard.WellFormed) (line : Text)
    (hroom : (unknownKeys (keyWords line)).length + 2 * (namedKeys (keyWords line)).length ≤
      m.trace.room) :
    ∃ r : Reports, m.reports.Restored (namedKeys (keyWords line)) r ∧
      Macro.pressLine line m = .ok () { m with
        keyboard := r.keyboard
        media := r.media
        trace := ⟨m.trace.events ++ (unknownKeys (keyWords line) ++
            m.reports.events (chord (namedKeys (keyWords line)))).toArray,
          m.trace.room - ((unknownKeys (keyWords line)).length +
            2 * (namedKeys (keyWords line)).length)⟩ } ∧
      (m.reports.events (chord (namedKeys (keyWords line)))).length =
        2 * (namedKeys (keyWords line)).length := by
  have hsound : ∀ key ∈ namedKeys (keyWords line), key.Sound := by
    intro key hk
    obtain ⟨word, -, hname⟩ := List.mem_filterMap.mp hk
    exact Key.sound_of_ofName? hname
  have hlength : (chord (namedKeys (keyWords line))).length =
      2 * (namedKeys (keyWords line)).length := by
    rw [chord, List.length_append, List.length_map, List.length_map, List.length_reverse]
    omega
  have hprints : (unknownKeys (keyWords line)).length ≤ m.trace.room := by omega
  have hkeys : Macro.keysOfLine line m =
      .ok (namedKeys (keyWords line)) (m.tells (unknownKeys (keyWords line))) :=
    Macro.keysOf_eq hprints
  have hleft : 2 * (namedKeys (keyWords line)).length ≤
      (m.tells (unknownKeys (keyWords line))).trace.room := by
    change _ ≤ m.trace.room - (unknownKeys (keyWords line)).length
    omega
  refine ⟨_, Reports.restored_chord hw hsound, ?_, (Reports.length_events _ _).trans hlength⟩
  rw [Macro.pressLine, bind_of_ok hkeys,
    Macro.pressKeys_eq (fun key hk ↦ (hsound key hk).fits) hleft, Machine.moved_tells, hlength]

/-- A machine with the right shift key, the blank, `z` and a volume key down. -/
def heldMachine : Machine :=
  { Machine.fresh 1 20 0 with
    keyboard := { modifiers := 0x20, slots := [0x2C, 0x1D, 0, 0, 0, 0] }
    media := ⟨0xE9⟩ }

/-- A line that names the left shift key, the blank, a letter twice and a word that is no key
leaves the right shift key, `z` and the volume key down. -/
theorem pressLine_restores_held : ∃ m',
    Macro.pressLine "SHIFT a SPACE NOKEY a b".toList heldMachine = .ok () m' ∧
    m'.keyboard.modifiers = 0x20 ∧ m'.keyboard.keys = [0x1D] ∧ m'.media = ⟨0xE9⟩ ∧
    m'.trace.events.size = 11 := by
  have hnamed : namedKeys (keyWords "SHIFT a SPACE NOKEY a b".toList) =
      [.key 0xE1, .key 0x04, .key 0x2C, .key 0x04, .key 0x05] := by decide +kernel
  have hunknown : (unknownKeys (keyWords "SHIFT a SPACE NOKEY a b".toList)).length = 1 := by
    decide +kernel
  have hkeys : heldMachine.keyboard.keys = [0x2C, 0x1D] := by decide
  have hregular : ∀ k ∈ heldMachine.keyboard.keys, k < 0xE0 ∨ 0xE7 < k := by
    rw [hkeys]
    exact List.forall_mem_cons.mpr ⟨by decide, List.forall_mem_singleton.mpr (by decide)⟩
  have hwell : heldMachine.keyboard.WellFormed := ⟨⟨4, by decide⟩, by decide, hregular⟩
  obtain ⟨r, hr, hrun, hlength⟩ :=
    pressLine_restores hwell "SHIFT a SPACE NOKEY a b".toList (by rw [hnamed, hunknown]; decide)
  rw [hnamed] at hr hlength
  refine ⟨_, hrun, hr.modifiers.trans (by decide), (hr.allKept (by decide)).trans (by decide),
    hr.media.trans (by decide), ?_⟩
  have hsize : (unknownKeys (keyWords "SHIFT a SPACE NOKEY a b".toList) ++
      heldMachine.reports.events (chord
        [.key 0xE1, .key 0x04, .key 0x2C, .key 0x04, .key 0x05])).length = 11 := by
    rw [List.length_append, hlength, hunknown]
    rfl
  rw [hnamed, Array.size_append]
  exact congrArg (0 + ·) hsize

end Deskhand.Script
