import Deskhand.Proofs.KeyCodes
import Deskhand.Proofs.SentReports

/-!
# Characters behind the table of a layout

A layout looks a character up in its table if the code of the character lies there, and among its
further characters if it lies behind. The first code behind the table counts for neither: it is
looked up in the table, which ends right before it. So a character behind the table is typed by the
number it has among the further characters, and refused for want of a key if it has none, exactly
if its code is not that first one.
-/

namespace Deskhand

namespace Hid

/-! ### Keys one after the other -/

/-- Work sends the same reports whenever it does from the same report. -/
theorem Sends.unique {act : Act KeyReport Unit} {before after after' : KeyReport}
    {reports reports' : List KeyReport} (h : Sends act before after reports)
    (h' : Sends act before after' reports') : reports = reports' := by
  have hrun := h.run #[] reports'.length
  rw [Nat.add_comm, h'.run #[] reports.length] at hrun
  obtain ⟨-, hport⟩ := EStateM.Result.ok.inj hrun
  have hevents : reports'.map Event.key = reports.map Event.key := by
    simpa using congrArg (fun port : Port KeyReport ↦ port.trace.events) hport
  exact ((List.map_inj_right fun _ _ he ↦ Event.key.inj he).mp hevents).symm

namespace Keyboard

/-- Keys that fit a byte go down one after the other, from any report. -/
theorem sends_presses {codes : List KeyCode}
    (h : ∀ code ∈ codes, ∃ key : UInt8, code = (key.toNat : Int)) (r : KeyReport) :
    Sends (codes.forM fun code ↦ press [code]) r ((r.pressedInTurn codes).getLastD r)
      (r.pressedInTurn codes) := by
  induction codes generalizing r with
  | nil => exact .pure r
  | cons code rest ih =>
    obtain ⟨key, rfl⟩ := h code List.mem_cons_self
    have hpress : r.press (key.toNat : Int) = ((r.press (key.toNat : Int)).1, none) :=
      Prod.ext rfl (r.press_byte_accepted key)
    rw [KeyReport.pressedInTurn, List.getLastD_cons]
    exact (sends_press hpress).seq (ih (fun c hc ↦ h c (List.mem_cons_of_mem _ hc)) _)

/-- A key that does not fit a byte is refused. -/
theorem press_of_not_byte {code : Int} (h : KeyReport.byte? code = none)
    (port : Port KeyReport) : ∃ port', press [code] port = .error (.failed .keyNotByte) port' := by
  have hmodifier : modifierIndex? code = none := by
    have hrange := KeyReport.byte?_eq_none.mp h
    exact KeyReport.modifierIndex?_eq_none.mpr (by omega)
  have hpress : ∃ r, port.report.press code = (r, some .keyNotByte) := by
    rw [KeyReport.press, hmodifier]
    dsimp only
    rw [KeyReport.pressSlot, h]
    dsimp only
    split
    · exact ⟨_, rfl⟩
    · exact ⟨_, rfl⟩
  obtain ⟨r, hr⟩ := hpress
  have hall : port.report.pressAll [code] = (r, some .keyNotByte) := by
    rw [KeyReport.pressAll, hr]
  refine ⟨⟨r, port.trace⟩, ?_⟩
  rw [press, bind_of_ok (run_get port), hall]
  rfl

/-- The second port has the events of the first and more key reports. -/
def ReportsAdded (port port' : Port KeyReport) : Prop :=
  ∃ reports : List KeyReport,
    port'.trace.events.toList = port.trace.events.toList ++ reports.map Event.key

instance : IsPreorder (Port KeyReport) ReportsAdded where
  refl _ := ⟨[], by simp⟩
  trans _ _ _ h₁ h₂ := by
    obtain ⟨reports, h₁⟩ := h₁
    obtain ⟨more, h₂⟩ := h₂
    exact ⟨reports ++ more, by rw [h₂, h₁, List.map_append, List.append_assoc]⟩

/-- Pressing keys adds key reports alone. -/
theorem reportsAdded_press (codes : List KeyCode) : Keeps ReportsAdded (press codes) := by
  have hemit : ∀ r, Keeps ReportsAdded (Act.emit (.key r)) := by
    intro r
    refine ⟨fun port ↦ ?_⟩
    unfold Act.emit
    cases port.trace.room with
    | zero => exact .exhausted
    | succ room => exact .ok ⟨[r], by simp⟩
  unfold press
  refine Keeps.bind Keeps.get fun port ↦ ?_
  rcases port.report.pressAll codes with ⟨report, fault⟩
  refine Keeps.bind (Keeps.modify fun _ ↦ ⟨[], by simp⟩) fun _ ↦ ?_
  cases fault with
  | some fault => exact Keeps.failed fault
  | none => exact Keeps.bind Keeps.get fun _ ↦ hemit _

/-- Keys that do not all fit a byte do not all go down. -/
theorem forM_press_ne_ok {codes : List KeyCode} {code : KeyCode} (hmem : code ∈ codes)
    (h : KeyReport.byte? code = none) (port port' : Port KeyReport) :
    codes.forM (fun code ↦ press [code]) port ≠ .ok () port' := by
  induction codes generalizing port with
  | nil => cases hmem
  | cons first rest ih =>
    intro hrun
    obtain ⟨_, between, hfirst, hrest⟩ := exists_of_bind_ok hrun
    rcases List.mem_cons.mp hmem with rfl | hmem
    · obtain ⟨refused, hrefused⟩ := press_of_not_byte h port
      cases hfirst.symm.trans hrefused
    · exact ih hmem between hrest

end Keyboard

namespace Layout

/-! ### Characters and their numbers -/

/-- A character is typed as a layout number says: the number fits a byte, and from every report its
keys go down one after the other and up together, and nothing else is sent. -/
structure TypesAs (l : Layout) (c : Char) (n : Int) : Prop where
  byte : n < 256
  sends : ∀ r : KeyReport, Sends (l.typeText none [c]) r .empty
    (r.pressedInTurn (Stroke.codes ⟨n, l.needsAltGr c⟩) ++ [.empty])

/-- The number of a character among the further characters: by its code, or else by itself. -/
def further? (l : Layout) (c : Char) : Option Int :=
  (lastEntry l.byCode c.toNat).or (lastEntry l.byChar c)

private theorem typeText_singleton (l : Layout) (c : Char) :
    l.typeText none [c] = l.typeChar c := by
  rw [typeText_cons]
  exact bind_pure_unit

private theorem sends_typeStroke_from (n : UInt8) (altGr : Bool) (r : KeyReport) :
    Sends (typeStroke ⟨(n.toNat : Int), altGr⟩) r .empty
      (r.pressedInTurn (Stroke.codes ⟨(n.toNat : Int), altGr⟩) ++ [.empty]) := by
  rw [typeStroke_eq_forM]
  exact (Keyboard.sends_presses (Stroke.codes_byte n altGr) r).seq (Keyboard.sends_releaseAll _)

/-- A number above zero that fits a byte is that of a byte other than zero. -/
theorem exists_byte {n : Int} (hn : 0 < n) (hbyte : n < 256) :
    ∃ key : UInt8, key ≠ 0 ∧ n = (key.toNat : Int) := by
  cases hkey : KeyReport.byte? n with
  | none =>
    have hrange := KeyReport.byte?_eq_none.mp hkey
    omega
  | some key =>
    have hnumber := KeyReport.byte?_eq_some.mp hkey
    refine ⟨key, ?_, hnumber⟩
    rintro rfl
    rw [hnumber] at hn
    exact absurd hn (by decide)

/-- A stroke with a number that does not fit a byte has a key that does not. -/
theorem exists_not_byte {n : Int} (hn : 256 ≤ n) (altGr : Bool) :
    ∃ code ∈ Stroke.codes ⟨n, altGr⟩, KeyReport.byte? code = none := by
  obtain ⟨m, rfl⟩ := Int.eq_ofNat_of_zero_le (show 0 ≤ n by omega)
  have hm : 256 ≤ m := by omega
  have hlarge : 256 ≤ m ^^^ (m &&& 128) := by
    -- the flag lies below the bits that make the number large
    have hhigh : (m ^^^ (m &&& 128)) >>> 8 = m >>> 8 := by
      rw [Nat.shiftRight_xor_distrib, Nat.shiftRight_and_distrib, show 128 >>> 8 = 0 from rfl,
        Nat.and_zero, Nat.xor_zero]
    rw [Nat.shiftRight_eq_div_pow, Nat.shiftRight_eq_div_pow] at hhigh
    omega
  by_cases hshift : isShifted (m : Int)
  · refine ⟨unshifted (m : Int), by simp [Stroke.codes, hshift], ?_⟩
    rw [show unshifted (m : Int) = ((m ^^^ (m &&& 128) : Nat) : Int) from rfl]
    exact KeyReport.byte?_eq_none.mpr (.inr (Int.ofNat_le.mpr hlarge))
  · exact ⟨(m : Int), by simp [Stroke.codes, hshift], KeyReport.byte?_eq_none.mpr (.inr hn)⟩

/-- What a stroke sends with no key down tells its number: the last report before the release shows
it, and no report but the release is empty. -/
theorem pressedInTurn_codes (n : UInt8) (altGr : Bool) :
    ((KeyReport.empty.pressedInTurn (Stroke.codes ⟨(n.toNat : Int), altGr⟩)).getLastD
        .empty).number = n ∧
      (n ≠ 0 → KeyReport.empty ∉
        KeyReport.empty.pressedInTurn (Stroke.codes ⟨(n.toNat : Int), altGr⟩)) := by
  have hall : ∀ n : Fin 256, ∀ altGr : Bool,
      ((KeyReport.empty.pressedInTurn
        (Stroke.codes ⟨((UInt8.ofFin n).toNat : Int), altGr⟩)).getLastD .empty).number =
          UInt8.ofFin n ∧
      (UInt8.ofFin n ≠ 0 → KeyReport.empty ∉ KeyReport.empty.pressedInTurn
        (Stroke.codes ⟨((UInt8.ofFin n).toNat : Int), altGr⟩)) := by decide +kernel
  exact hall n.toFin altGr

/-- A character without a number above zero is refused at some point, or is typed by two strokes. -/
theorem strokes_of_not_pos {l : Layout} {c : Char} {n : Int} (h : l.number c = .ok n)
    (hn : ¬ 0 < n) :
    (∃ strokes fault, l.strokes c = (strokes, some fault)) ∨
      ∃ first second, l.strokes c = ([first, second], none) := by
  rw [strokes, h]
  dsimp only
  rw [if_neg hn]
  split
  · exact .inl ⟨_, _, rfl⟩
  · split
    · exact .inl ⟨_, _, rfl⟩
    · exact .inr ⟨_, _, rfl⟩

/-- A stroke that is typed ends with the release of its keys. -/
theorem events_of_typeStroke {s : Stroke} {port port' : Port KeyReport}
    (h : typeStroke s port = .ok () port') : ∃ reports : List KeyReport,
      port'.trace.events.toList =
        port.trace.events.toList ++ (reports ++ [KeyReport.empty]).map Event.key := by
  rw [typeStroke_eq_forM] at h
  obtain ⟨_, between, hpress, hrelease⟩ := exists_of_bind_ok h
  obtain ⟨reports, hreports⟩ :=
    (Keeps.forM (fun code ↦ Keyboard.reportsAdded_press [code]) s.codes).of_ok hpress
  refine ⟨reports, ?_⟩
  change Act.emit (.key KeyReport.empty) ⟨KeyReport.empty, between.trace⟩ = _ at hrelease
  unfold Act.emit at hrelease
  split at hrelease
  · cases hrelease
  · obtain rfl := (EStateM.Result.ok.inj hrelease).2
    simp [hreports]

/-- Two strokes in a row send an empty report before their last one. -/
theorem empty_mem_of_two_strokes {first second : Stroke} {before after : KeyReport}
    {reports : List KeyReport}
    (h : Sends ([first, second].forM typeStroke) before after (reports ++ [.empty])) :
    KeyReport.empty ∈ reports := by
  obtain ⟨_, between, hfirst, hrest⟩ := exists_of_bind_ok (h.run #[] 0)
  obtain ⟨_, last, hsecond, hlast⟩ := exists_of_bind_ok hrest
  cases hlast
  obtain ⟨early, hearly⟩ := events_of_typeStroke hfirst
  obtain ⟨late, hlate⟩ := events_of_typeStroke hsecond
  rw [hearly] at hlate
  have hsent : (early ++ [KeyReport.empty]) ++ (late ++ [KeyReport.empty]) =
      reports ++ [KeyReport.empty] := by
    refine (List.map_inj_right fun _ _ he ↦ Event.key.inj he).mp ?_
    simpa using hlate.symm
  rw [← List.append_assoc] at hsent
  rw [← List.append_cancel_right hsent]
  simp

variable {l : Layout} {c : Char}

/-- A character is typed as a number above zero says only if it is its number. -/
theorem TypesAs.number {n : Int} (h : l.TypesAs c n) (hn : 0 < n) : l.number c = .ok n := by
  obtain ⟨key, hkey, rfl⟩ := exists_byte hn h.byte
  have hsends := h.sends .empty
  rw [typeText_singleton] at hsends
  have hrun := hsends.run #[] 0
  cases hk : l.number c with
  | error fault =>
    rw [typeChar_of_fault (by rw [strokes, hk])] at hrun
    cases hrun
  | ok k =>
    by_cases hpos : 0 < k
    · rw [typeChar_of_pos hk hpos] at hsends hrun
      by_cases hbyte : k < 256
      · obtain ⟨key', -, rfl⟩ := exists_byte hpos hbyte
        have hreports := List.append_cancel_right
          (hsends.unique (sends_typeStroke_from key' (l.needsAltGr c) .empty))
        have hnumber := (pressedInTurn_codes key (l.needsAltGr c)).1
        rw [hreports, (pressedInTurn_codes key' (l.needsAltGr c)).1] at hnumber
        rw [hnumber]
      · obtain ⟨code, hmem, hnot⟩ := exists_not_byte (Int.not_lt.mp hbyte) (l.needsAltGr c)
        rw [typeStroke_eq_forM] at hrun
        obtain ⟨_, between, hpress, -⟩ := exists_of_bind_ok hrun
        exact absurd hpress (Keyboard.forM_press_ne_ok hmem hnot _ _)
    · exfalso
      rcases strokes_of_not_pos hk hpos with ⟨strokes, fault, hs⟩ | ⟨first, second, hs⟩
      · rw [typeChar, hs] at hrun
        obtain ⟨_, between, -, hfail⟩ := exists_of_bind_ok hrun
        cases hfail
      · have hchar : l.typeChar c = [first, second].forM typeStroke := by
          rw [typeChar, hs]
          exact bind_pure_unit
        rw [hchar] at hsends
        exact (pressedInTurn_codes key (l.needsAltGr c)).2 hkey (empty_mem_of_two_strokes hsends)

/-- A character is typed as a number above zero says exactly if it has the number and the number
fits a byte. -/
theorem typesAs_iff {n : Int} (hn : 0 < n) : l.TypesAs c n ↔ l.number c = .ok n ∧ n < 256 := by
  constructor
  · intro h
    exact ⟨h.number hn, h.byte⟩
  · rintro ⟨hnumber, hbyte⟩
    obtain ⟨key, -, rfl⟩ := exists_byte hn hbyte
    refine ⟨hbyte, fun r ↦ ?_⟩
    rw [typeText_singleton, typeChar_of_pos hnumber hn]
    exact sends_typeStroke_from key _ r

/-! ### Behind the table -/

private theorem number_of_lt (h : l.table.length < c.toNat) :
    l.number c = .ok ((l.further? c).getD 0) := by
  rw [number, if_pos h, further?]
  cases lastEntry l.byCode c.toNat with
  | some n => rfl
  | none => rfl

/-- The first code behind the table is refused as such. -/
theorem number_of_eq (h : c.toNat = l.table.length) : l.number c = .error .behindTable := by
  rw [number, if_neg (by omega), h, List.getElem?_length]

/-- A character is refused for want of a key: there are no key codes for it, and typing it sends
nothing and changes nothing, for the same reason. -/
def Refuses (l : Layout) (c : Char) : Prop :=
  ∃ fault : Fault, fault.family = .value ∧ l.keyCodes [c] = .error fault ∧
    ∀ port, l.typeText none [c] port = .error (.failed fault) port

/-- Behind the table, the characters typed by a number above zero are those that have it among the
further characters, where it fits a byte, apart from the first code. -/
theorem typesAs_iff_further (hc : l.table.length ≤ c.toNat) {n : Int} (hn : 0 < n) :
    l.TypesAs c n ↔ c.toNat ≠ l.table.length ∧ l.further? c = some n ∧ n < 256 := by
  rw [typesAs_iff hn]
  by_cases hedge : c.toNat = l.table.length
  · simp [number_of_eq hedge, hedge]
  · have hnumber : (Except.ok ((l.further? c).getD 0) : Except Fault Int) = .ok n ↔
        l.further? c = some n := by
      cases l.further? c with
      | none => simp [Int.ne_of_lt hn]
      | some k => simp
    rw [number_of_lt (by omega), hnumber]
    simp [hedge]

/-- Behind the table, a character without any number is refused for want of a key unless its code is
the first. -/
theorem refuses_iff (hc : l.table.length ≤ c.toNat) (hfurther : l.further? c = none)
    (hcombined : lastEntry l.combined c.toNat = none) :
    l.Refuses c ↔ c.toNat ≠ l.table.length := by
  constructor
  · rintro ⟨fault, hfamily, hcodes, -⟩ hedge
    rw [keyCodes, number_of_eq hedge] at hcodes
    cases hcodes
    cases hfamily
  · intro hedge
    have hnumber : l.number c = .ok 0 := by
      rw [number_of_lt (by omega), hfurther]
      rfl
    refine ⟨.noKey c, rfl, by rw [keyCodes, hnumber]; rfl, fun port ↦ ?_⟩
    have hstrokes : l.strokes c = ([], some (.noKey c)) := by
      rw [strokes, hnumber, hcombined]
      rfl
    rw [typeText_singleton, typeChar_of_fault hstrokes]
    rfl

/-! ### Texts in the layout of the scripts -/

private theorem sends_typeText_from {t : Text} (h : ∀ c ∈ t, us.HasKey c) (r : KeyReport) :
    Sends (us.typeText none t) r ((textReports r t).getLastD r) (textReports r t) := by
  induction t generalizing r with
  | nil => exact .pure r
  | cons c t ih =>
    rw [List.forall_mem_cons] at h
    rw [typeText_cons, typeChar_of_stroke (strokes_us h.1), textReports, List.append_cons,
      getLastD_append, getLastD_append]
    exact (sends_typeStroke_from (us.entry c) false r).seq (ih h.2 .empty)

/-- The reason why a character has no key: its code is the first behind the table, or there is none
for it. -/
def keyFault (c : Char) : Fault := if c = '\u0080' then .behindTable else .noKey c

/-- A character without a key is refused before anything is sent. -/
theorem typeChar_us_of_not_hasKey (h : ¬ us.HasKey c) : us.typeChar c = Act.fail (keyFault c) := by
  by_cases hedge : c = '\u0080'
  · have hstrokes : us.strokes c = ([], some .behindTable) := by
      rw [strokes, number_of_eq (by rw [hedge]; rfl)]
    rw [typeChar_of_fault hstrokes, keyFault, if_pos hedge]
  · have hentry : us.entry c = 0 := Classical.not_not.mp h
    have hlength : us.table.length = 128 := rfl
    have hcode : c.toNat ≠ us.table.length := fun hc ↦ hedge (Char.toNat_inj.mp hc)
    have hnumber : us.number c = .ok 0 := by
      rcases Nat.lt_or_gt_of_ne hcode with hlt | hgt
      · rw [entry, List.getElem?_eq_getElem hlt, Option.getD_some] at hentry
        rw [number, if_neg (by omega), List.getElem?_eq_getElem hlt, hentry]
        rfl
      · rw [number_of_lt hgt]
        rfl
    have hstrokes : us.strokes c = ([], some (.noKey c)) := by
      rw [strokes, hnumber]
      rfl
    rw [typeChar_of_fault hstrokes, keyFault, if_neg hedge]

/-- A text is typed up to its first character without a key and refused there. -/
theorem typeText_us_refused {before : Text} (after : Text)
    (hbefore : ∀ c ∈ before, us.HasKey c) (hc : ¬ us.HasKey c) (r : KeyReport)
    (events : Array Event) (room : Nat) :
    ∃ port, us.typeText none (before ++ c :: after)
        ⟨r, events, (textReports r before).length + room⟩ = .error (.failed (keyFault c)) port := by
  rw [typeText_append, bind_of_ok ((sends_typeText_from hbefore r).run events room), typeText_cons,
    typeChar_us_of_not_hasKey hc]
  exact ⟨_, rfl⟩

end Layout

end Hid

namespace Script

open Hid (Layout)

/-- Typing a text that has a character without a key fails, for want of a key unless the first such
character has the first code behind the table. -/
theorem Macro.typeText_refused {t : Text} {c : Char} {m : Machine}
    (hc : t.find? (fun c ↦ !decide (Layout.us.HasKey c)) = some c)
    (hroom : (Layout.textReports m.keyboard (Layout.keyed t)).length ≤ m.trace.room) :
    ∃ m', Macro.typeText t m = .error (.failed (.device (Layout.keyFault c))) m' := by
  obtain ⟨hkey, before, after, rfl, hbefore⟩ := List.find?_eq_some_iff_append.mp hc
  have hkeys : ∀ d ∈ before, Layout.us.HasKey d := by simpa using hbefore
  have hnot : ¬ Layout.us.HasKey c := by simpa using hkey
  have hkeyed : Layout.keyed (before ++ c :: after) = before := by
    rw [Layout.keyed_append, if_pos (by simpa [Layout.hasKeys] using hkeys)]
    simp [Layout.keyed, hnot]
  rw [hkeyed] at hroom
  obtain ⟨room, hroom⟩ := Nat.exists_eq_add_of_le hroom
  obtain ⟨port, hport⟩ :=
    Layout.typeText_us_refused after hkeys hnot m.keyboard m.trace.events room
  rw [← hroom] at hport
  refine ⟨{ m with keyboard := port.report, trace := port.trace }, ?_⟩
  rw [Macro.typeText, Macro.onKeyboard, hport]
  rfl

private theorem family_keyFault (c : Char) :
    (Fault.device (Layout.keyFault c)).family = .value ↔ c ≠ '\u0080' := by
  rw [Layout.keyFault]
  split
  · next h => simp [h, Fault.family, Hid.Fault.family]
  · next h => simp [h, Fault.family, Hid.Fault.family]

/-- In every layout, a character behind the table is typed as a number above zero says exactly if it
has it among the further characters, the number fits a byte and its code is not the first one behind
the table (`write`). One that is neither among them nor typed as two is refused for want of a key
exactly if its code is not the first one. So a script that types a text that has a character without
a key always fails, and does so for want of a key exactly if the first such character is not the one
right behind the table. -/
theorem untypable_refused_iff (l : Layout) (c : Char) (t : Text) (m : Machine) :
    (l.table.length ≤ c.toNat →
      (∀ n : Int, 0 < n →
        (l.TypesAs c n ↔ c.toNat ≠ l.table.length ∧ l.further? c = some n ∧ n < 256)) ∧
      (l.further? c = none → Layout.lastEntry l.combined c.toNat = none →
        (l.Refuses c ↔ c.toNat ≠ l.table.length))) ∧
    ∀ first : Char, t.find? (fun d ↦ !decide (Layout.us.HasKey d)) = some first →
      (Layout.textReports m.keyboard (Layout.keyed t)).length ≤ m.trace.room →
        ∃ fault m', Macro.typeText t m = .error (.failed fault) m' ∧
          (fault.family = .value ↔ first ≠ '\u0080') := by
  constructor
  · intro hc
    exact ⟨fun n hn ↦ Layout.typesAs_iff_further hc hn, Layout.refuses_iff hc⟩
  · intro first hfirst hroom
    obtain ⟨m', hm'⟩ := Macro.typeText_refused hfirst hroom
    exact ⟨_, m', hm', family_keyFault first⟩

/-- Behind a table of two, one character is typed by itself with right alt and shift, another is
refused; a script types a letter and refuses the next character. -/
theorem untypable_refused_iff_small :
    Layout.smallLayout.TypesAs 'é' 0x96 ∧ Layout.smallLayout.Refuses 'z' ∧
      ∃ fault m', Macro.typeText ['a', 'é'] (.fresh 1 5 0) = .error (.failed fault) m' ∧
        fault.family = .value := by
  obtain ⟨hbehind, htext⟩ :=
    untypable_refused_iff Layout.smallLayout 'é' ['a', 'é'] (.fresh 1 5 0)
  obtain ⟨htyped, -⟩ := hbehind (by decide)
  obtain ⟨-, hrefused⟩ :=
    (untypable_refused_iff Layout.smallLayout 'z' [] (.fresh 1 5 0)).1 (by decide)
  obtain ⟨fault, m', hrun, hfamily⟩ := htext 'é' (by decide) (by decide)
  exact ⟨(htyped 0x96 (by decide)).mpr ⟨by decide, rfl, by decide⟩,
    (hrefused rfl rfl).mpr (by decide), fault, m', hrun, hfamily.mpr (by decide)⟩

/-- The character right behind the table of the scripts has no number and is not refused for want of
a key: it is looked up behind the end of the table. -/
theorem first_code_behind_table_not_refused :
    Layout.us.table.length ≤ '\u0080'.toNat ∧ Layout.us.further? '\u0080' = none ∧
      Layout.lastEntry Layout.us.combined '\u0080'.toNat = none ∧
      Layout.us.keyCodes ['\u0080'] = .error .behindTable ∧
      ∃ m', Macro.typeText ['\u0080'] (.fresh 1 5 0) = .error (.failed (.device .behindTable)) m' ∧
        (Fault.device .behindTable).family = .index := by
  have hcodes : Layout.us.keyCodes ['\u0080'] = .error .behindTable := by
    rw [Layout.keyCodes, Layout.number_of_eq rfl]
  obtain ⟨m', hm'⟩ :=
    Macro.typeText_refused (t := ['\u0080']) (c := '\u0080') (m := .fresh 1 5 0) (by decide)
      (by decide)
  exact ⟨Nat.le_refl 128, rfl, rfl, hcodes, m', hm', rfl⟩

end Script

end Deskhand
