import Deskhand.Proofs.Typing
import Deskhand.Script.Machine

/-!
# Typed texts can be read back

A host sees nothing of a keyboard but its reports. Typing a character sends one report for the shift
key if it is needed, one with the key in the first slot, and an empty one, so nothing of a character
is left when the next begins. No two characters of the table have the same key and shift; so a host
that looks up the key of each report that has one reads exactly the text that was typed.
-/

namespace Deskhand.Hid

/-! ### The host -/

/-- The layout number a host takes from a report: the key in the first slot, with the bit `0x80` set
exactly when left shift is down. -/
def KeyReport.number (r : KeyReport) : UInt8 :=
  if r.modifiers &&& 0x02 = 0 then r.slots.headD 0 &&& 0x7F else r.slots.headD 0 ||| 0x80

namespace Layout

/-- The character whose entry in the table a report shows. -/
def charOf? (l : Layout) (r : KeyReport) : Option Char :=
  (l.table.findIdx? (· == r.number)).map Char.ofNat

/-- What a host reads: a character at each report with a key in the first slot. -/
def read? (l : Layout) : List KeyReport → Option Text
  | [] => some []
  | r :: rest =>
    if r.slots.headD 0 = 0 then l.read? rest
    else
      match l.charOf? r, l.read? rest with
      | some c, some t => some (c :: t)
      | _, _ => none

/-- The entry of a character in the table, zero if there is none. -/
def entry (l : Layout) (c : Char) : UInt8 := (l.table[c.toNat]?).getD 0

/-- The table of a layout has a key for a character. -/
def HasKey (l : Layout) (c : Char) : Prop := l.entry c ≠ 0

instance (l : Layout) (c : Char) : Decidable (l.HasKey c) := inferInstanceAs (Decidable (_ ≠ _))

private theorem HasKey.getElem? {l : Layout} {c : Char} (h : l.HasKey c) :
    l.table[c.toNat]? = some (l.entry c) := by
  unfold HasKey at h
  unfold entry at h ⊢
  cases hn : l.table[c.toNat]? with
  | none => simp [hn] at h
  | some n => rfl

end Layout

/-! ### What is sent -/

/-- From one report to another, work sends the given reports and nothing else, if there is room for
them. -/
structure Sends (act : Act KeyReport Unit) (before after : KeyReport) (reports : List KeyReport) :
    Prop where
  run : ∀ events room, act ⟨before, ⟨events, reports.length + room⟩⟩ =
    .ok () ⟨after, ⟨events ++ (reports.map Event.key).toArray, room⟩⟩

namespace Sends

variable {act next : Act KeyReport Unit} {before between after : KeyReport}
variable {reports more : List KeyReport}

/-- Doing nothing sends nothing. -/
theorem pure (r : KeyReport) : Sends (pure ()) r r [] := by
  refine ⟨fun events room ↦ ?_⟩
  have hroom : ([] : List KeyReport).length + room = room := by simp
  rw [hroom]
  simp [Pure.pure, EStateM.pure]

/-- Work in sequence sends what its parts send. -/
theorem seq (h : Sends act before between reports) (hn : Sends next between after more) :
    Sends (do act; next) before after (reports ++ more) := by
  refine ⟨fun events room ↦ ?_⟩
  rw [List.length_append, Nat.add_assoc]
  refine (bind_of_ok (h.run events _)).trans ?_
  rw [hn.run]
  simp

private theorem setReport_emit (before after : KeyReport) :
    Sends (do Act.setReport after; Act.emit (.key after)) before after [after] := by
  refine ⟨fun events room ↦ ?_⟩
  have hroom : [after].length + room = room + 1 := Nat.add_comm ..
  have hpush : events ++ ([after].map Event.key).toArray = events.push (.key after) := by simp
  rw [hroom, hpush]
  rfl

end Sends

namespace KeyReport

/-- At most one key is down besides modifiers. -/
def single (modifiers key : UInt8) : KeyReport where
  modifiers
  slots := [key, 0, 0, 0, 0, 0]
  size_eq := rfl

/-- The first key that goes down takes the first slot. -/
theorem press_single (modifiers key : UInt8) (h : key < 0x80) :
    (single modifiers 0).press key.toNat = (single modifiers key, none) := by
  have hlt : key.toNat < 128 := h
  have hm : modifierIndex? (key.toNat : Int) = none :=
    modifierIndex?_eq_none.mpr (.inl (by omega))
  have hb : byte? (key.toNat : Int) = some key := byte?_eq_some.mpr rfl
  rw [press, hm]
  dsimp only
  rw [pressSlot, hb]
  rfl

private theorem number_single (key : UInt8) : (single 0 key).number = key &&& 0x7F := by
  simp [number, single]

private theorem number_single_shift (key : UInt8) : (single 0x02 key).number = key ||| 0x80 := by
  simp [number, single]

/-- Left shift sets its bit. -/
theorem press_shiftKey : empty.press shiftKey = (single 0x02 0, none) := by decide

end KeyReport

namespace Keyboard

/-- Pressing a key sends the report with the key down. -/
theorem sends_press {r r' : KeyReport} {code : KeyCode} (h : r.press code = (r', none)) :
    Sends (press [code]) r r' [r'] := by
  refine ⟨fun events room ↦ ?_⟩
  have hp : r.pressAll [code] = (r', none) := by
    rw [KeyReport.pressAll, h]
    rfl
  rw [press, bind_of_ok (run_get _), hp]
  exact (Sends.setReport_emit r r').run events room

/-- Releasing every key sends the empty report. -/
theorem sends_releaseAll (r : KeyReport) : Sends releaseAll r .empty [.empty] :=
  Sends.setReport_emit r .empty

end Keyboard

/-! ### Characters -/

/-- The reports that type the character of a layout number. -/
def reportsFor (n : UInt8) : List KeyReport :=
  if n < 0x80 then [.single 0 n, .empty]
  else [.single 0x02 0, .single 0x02 (n &&& 0x7F), .empty]

/-- The keys of a stroke: the key itself, or left shift and the key without its flag. -/
theorem Stroke.codes_eq (n : UInt8) :
    Stroke.codes ⟨(n.toNat : Int), false⟩ =
      if n < 0x80 then [(n.toNat : Int)] else [shiftKey, ((n &&& 0x7F).toNat : Int)] := by
  have hall : ∀ n : Fin 256, Stroke.codes ⟨((UInt8.ofFin n).toNat : Int), false⟩ =
      if UInt8.ofFin n < 0x80 then [((UInt8.ofFin n).toNat : Int)]
      else [shiftKey, ((UInt8.ofFin n &&& 0x7F).toNat : Int)] := by decide +kernel
  exact hall n.toFin

namespace Layout

/-- A stroke without right alt sends the reports of its number and leaves no key down. -/
theorem sends_typeStroke (n : UInt8) :
    Sends (typeStroke ⟨(n.toNat : Int), false⟩) .empty .empty (reportsFor n) := by
  rw [typeStroke_eq_forM, Stroke.codes_eq, reportsFor]
  by_cases hn : n < 0x80
  · rw [if_pos hn, if_pos hn]
    have hkey := Keyboard.sends_press (KeyReport.press_single 0 n hn)
    exact (hkey.seq (.pure _)).seq (Keyboard.sends_releaseAll _)
  · rw [if_neg hn, if_neg hn]
    have hlow : n &&& 0x7F < 0x80 := by
      rw [UInt8.lt_iff_toNat_lt, UInt8.toNat_and]
      exact Nat.lt_of_le_of_lt Nat.and_le_right (by decide)
    have hshift := Keyboard.sends_press KeyReport.press_shiftKey
    have hkey := Keyboard.sends_press (KeyReport.press_single 0x02 _ hlow)
    exact (hshift.seq (hkey.seq (.pure _))).seq (Keyboard.sends_releaseAll _)

/-- A character that has a key is typed by one stroke. -/
theorem strokes_us {c : Char} (h : us.HasKey c) :
    us.strokes c = ([⟨((us.entry c).toNat : Int), false⟩], none) := by
  have hlt : c.toNat < us.table.length := (List.getElem?_eq_some_iff.mp h.getElem?).1
  have hnumber : us.number c = .ok ((us.entry c).toNat : Int) := by
    rw [number, if_neg (by omega), h.getElem?]
  have hpos : (0 : Int) < ((us.entry c).toNat : Int) := by
    have : (us.entry c).toNat ≠ 0 := fun h0 ↦ h (UInt8.toNat_inj.mp h0)
    omega
  rw [strokes, hnumber]
  dsimp only
  rw [if_pos hpos]
  rfl

private theorem sends_typeChar {c : Char} (h : us.HasKey c) :
    Sends (us.typeChar c) .empty .empty (reportsFor (us.entry c)) := by
  rw [typeChar, strokes_us h]
  have hsent := ((sends_typeStroke (us.entry c)).seq (.pure .empty)).seq (.pure .empty)
  simpa using hsent

/-- The reports that type a text. -/
def usReports (t : Text) : List KeyReport := t.flatMap fun c ↦ reportsFor (us.entry c)

/-- Typing a text whose characters have keys sends their reports in order, and leaves no key down.
-/
theorem sends_typeText {t : Text} (h : ∀ c ∈ t, us.HasKey c) :
    Sends (us.typeText none t) .empty .empty (usReports t) := by
  induction t with
  | nil => exact .pure .empty
  | cons c t ih =>
    have hchar : Sends (do us.typeChar c; pure ()) .empty .empty (reportsFor (us.entry c)) := by
      simpa using (sends_typeChar (h c (by simp))).seq (.pure .empty)
    exact hchar.seq (ih fun c hc ↦ h c (by simp [hc]))

/-! ### Reading back -/

/-- The flag and the key of a layout number make up the number. -/
private theorem key_or_flag (n : UInt8) :
    (n < 0x80 → n &&& 0x7F = n) ∧ (¬ n < 0x80 → n &&& 0x7F ||| 0x80 = n) := by
  have hall : ∀ n : Fin 256, (UInt8.ofFin n < 0x80 → UInt8.ofFin n &&& 0x7F = UInt8.ofFin n) ∧
      (¬ UInt8.ofFin n < 0x80 → UInt8.ofFin n &&& 0x7F ||| 0x80 = UInt8.ofFin n) := by
    decide +kernel
  exact hall n.toFin

/-- An item that is not repeated among those like it is found where it stands. -/
private theorem findIdx?_of_nodup {p : UInt8 → Bool} {items : List UInt8} {n : UInt8} (hp : p n)
    (hd : (items.filter p).Nodup) {i : Nat} (hn : items[i]? = some n) :
    items.findIdx? (· == n) = some i := by
  induction items generalizing i with
  | nil => simp at hn
  | cons k rest ih =>
    cases i with
    | zero =>
      obtain rfl : k = n := by simpa using hn
      simp [List.findIdx?_cons]
    | succ i =>
      have hmem : n ∈ rest.filter p := List.mem_filter.mpr ⟨List.mem_of_getElem? hn, hp⟩
      have hne : k ≠ n := by
        rintro rfl
        rw [List.filter_cons_of_pos hp, List.nodup_cons] at hd
        exact hd.1 hmem
      have hrest : (rest.filter p).Nodup := hd.sublist ((List.sublist_cons_self k rest).filter p)
      have hk : (k == n) = false := by simpa using hne
      rw [List.findIdx?_cons, hk, ih hrest hn]
      rfl

/-- An entry of the table that is not zero has a key, and is found where it stands: no two
characters have the same entry. -/
theorem findIdx?_us {i : Nat} {n : UInt8} (hn : us.table[i]? = some n) (h0 : n ≠ 0) :
    n &&& 0x7F ≠ 0 ∧ us.table.findIdx? (· == n) = some i := by
  have hkey : ∀ n ∈ us.table, n ≠ 0 → n &&& 0x7F ≠ 0 := by decide +kernel
  have hdistinct : (us.table.filter (· != 0)).Nodup := by decide +kernel
  refine ⟨hkey n (List.mem_of_getElem? hn) h0, findIdx?_of_nodup ?_ hdistinct hn⟩
  simpa using h0

/-- The reports of a character that has a key are read as that character. -/
theorem read?_reportsFor {c : Char} (h : us.HasKey c) {rest : List KeyReport} {t : Text}
    (ht : us.read? rest = some t) :
    us.read? (reportsFor (us.entry c) ++ rest) = some (c :: t) := by
  obtain ⟨hkey, hfound⟩ := findIdx?_us h.getElem? h
  have hempty : us.read? (.empty :: rest) = some t := ht
  have hread : ∀ r : KeyReport, r.slots.headD 0 ≠ 0 → r.number = us.entry c →
      us.read? (r :: .empty :: rest) = some (c :: t) := by
    intro r hr hn
    have hchar : us.charOf? r = some c := by
      rw [charOf?, hn, hfound, Option.map_some, Char.ofNat_toNat]
    rw [read?, if_neg hr, hchar, hempty]
  rw [reportsFor]
  by_cases hlt : us.entry c < 0x80
  · rw [if_pos hlt]
    refine hread (.single 0 (us.entry c)) h ?_
    rw [KeyReport.number_single, (key_or_flag _).1 hlt]
  · rw [if_neg hlt]
    -- the report of the shift key alone has no key in the first slot, so it is passed over
    refine hread (.single 0x02 (us.entry c &&& 0x7F)) hkey ?_
    rw [KeyReport.number_single_shift, (key_or_flag _).2 hlt]

/-- The reports that type a text are read as that text. -/
theorem read?_usReports {t : Text} (h : ∀ c ∈ t, us.HasKey c) :
    us.read? (usReports t) = some t := by
  induction t with
  | nil => rfl
  | cons c t ih => exact read?_reportsFor (h c (by simp)) (ih fun c hc ↦ h c (by simp [hc]))

end Layout

end Deskhand.Hid

namespace Deskhand.Script

open Hid (KeyReport Layout)

/-- The key report an event sends, if it does. -/
def keyReport? : Event → Option KeyReport
  | .key r => some r
  | _ => none

/-- The key reports among the events of a trace, in order, the first `n` events left out. -/
def keyReports (n : Nat) (trace : Trace) : List KeyReport :=
  (trace.events.toList.drop n).filterMap keyReport?

namespace Macro

/-- Typing a text whose characters have keys, with no key down and room for its reports, adds these
reports to the events and changes nothing else. -/
theorem typeText_sent {t : Text} (h : ∀ c ∈ t, Layout.us.HasKey c) {m : Machine}
    (hk : m.keyboard = .empty) (hroom : (Layout.usReports t).length ≤ m.trace.room) :
    typeText t m = .ok () { m with trace :=
      ⟨m.trace.events ++ ((Layout.usReports t).map Event.key).toArray,
        m.trace.room - (Layout.usReports t).length⟩ } := by
  have hrun := (Layout.sends_typeText h).run m.trace.events
    (m.trace.room - (Layout.usReports t).length)
  rw [Nat.add_sub_cancel' hroom] at hrun
  rw [typeText, onKeyboard, hk, hrun]

/-- So the key reports among the events that were added are the reports of the text. -/
theorem typeText_eq {t : Text} (h : ∀ c ∈ t, Layout.us.HasKey c) {m : Machine}
    (hk : m.keyboard = .empty) (hroom : (Layout.usReports t).length ≤ m.trace.room) :
    ∃ trace, typeText t m = .ok () { m with trace } ∧
      keyReports m.trace.events.size trace = Layout.usReports t := by
  refine ⟨_, typeText_sent h hk hroom, ?_⟩
  rw [keyReports, Array.toList_append, ← Array.length_toList, List.drop_left, List.filterMap_map]
  exact List.filterMap_some

/-- A text whose characters have keys is typed without a failure when no key is down and there is
room for its reports (`sendString`). No key is down afterwards, a host reads exactly the text from
the key reports that were sent, and so typing any other such text sends other reports. -/
theorem typeText_read_back (m : Machine) (t : Text) (hk : m.keyboard = .empty)
    (ht : ∀ c ∈ t, Layout.us.HasKey c) (hroom : (Layout.usReports t).length ≤ m.trace.room) :
    ∃ m', typeText t m = .ok () m' ∧ m'.keyboard = .empty ∧
      Layout.us.read? (keyReports m.trace.events.size m'.trace) = some t ∧
      ∀ n n' u, n.keyboard = .empty → (∀ c ∈ u, Layout.us.HasKey c) →
        (Layout.usReports u).length ≤ n.trace.room → typeText u n = .ok () n' → u ≠ t →
        keyReports n.trace.events.size n'.trace ≠ keyReports m.trace.events.size m'.trace := by
  obtain ⟨trace, hrun, hsent⟩ := typeText_eq ht hk hroom
  refine ⟨_, hrun, hk, ?_, ?_⟩
  · rw [hsent, Layout.read?_usReports ht]
  · intro n n' u hn hu hroom' hrun' hne heq
    obtain ⟨trace', hrun'', hsent'⟩ := typeText_eq hu hn hroom'
    obtain rfl : { n with trace := trace' } = n' :=
      (EStateM.Result.ok.inj (hrun''.symm.trans hrun')).2
    -- equal reports are read as one text
    rw [hsent, hsent'] at heq
    have hread := Layout.read?_usReports hu
    rw [heq, Layout.read?_usReports ht] at hread
    exact hne (Option.some.inj hread).symm

/-- A text with a repeated letter and both cases of one is read back. -/
theorem typeText_read_back_repeated : ∃ m',
    typeText "Aaa!".toList (Machine.fresh 1 10 0) = .ok () m' ∧ m'.keyboard = .empty ∧
      Layout.us.read? (keyReports 0 m'.trace) = some "Aaa!".toList := by
  have hall : "Aaa!".toList.all (fun c ↦ decide (Layout.us.HasKey c)) = true := by decide
  have hkeys : ∀ c ∈ "Aaa!".toList, Layout.us.HasKey c := fun c hc ↦
    of_decide_eq_true (List.all_eq_true.mp hall c hc)
  obtain ⟨m', hrun, hk, hread, _⟩ := typeText_read_back (Machine.fresh 1 10 0) "Aaa!".toList rfl
    hkeys (by decide)
  exact ⟨m', hrun, hk, hread⟩

end Macro

end Deskhand.Script
