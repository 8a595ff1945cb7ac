import Deskhand.Proofs.Decoding
import Deskhand.Proofs.Primitives
import Mathlib.Data.List.TakeWhile

/-!
# The reports that typing sends

Whatever keys are down when a text is typed, the reports that are sent follow from the report at the
beginning and from the characters up to the first that has no key. No key is down after a character,
so only the first one depends on what was down before. The keyboard is left with the last report that
was sent.
-/

namespace Deskhand

/-- What stands last in two lists in a row. -/
theorem getLastD_append {α : Type} (xs ys : List α) (a : α) :
    (xs ++ ys).getLastD a = ys.getLastD (xs.getLastD a) := by
  cases ys with
  | nil => simp
  | cons y ys => simp [List.getLastD_eq_getLast?, List.getLast?_append]

namespace Hid

/-! ### The reports of a text -/

/-- The reports of keys that go down one after the other. -/
def KeyReport.pressedInTurn (r : KeyReport) : List KeyCode → List KeyReport
  | [] => []
  | code :: rest => (r.press code).1 :: (r.press code).1.pressedInTurn rest

namespace Layout

/-- The reports that type the characters of a text, which have keys, from a report. -/
def textReports (r : KeyReport) : Text → List KeyReport
  | [] => []
  | c :: t => r.pressedInTurn (Stroke.codes ⟨((us.entry c).toNat : Int), false⟩) ++
      .empty :: textReports .empty t

/-- Whether every character of a text has a key. -/
def hasKeys (t : Text) : Bool := t.all fun c ↦ decide (us.HasKey c)

/-- The characters of a text up to the first that has no key. -/
def keyed (t : Text) : Text := t.takeWhile fun c ↦ decide (us.HasKey c)

/-- A text is typed up to its end, if all its characters have keys, and then the text after it. -/
theorem keyed_append (t u : Text) :
    keyed (t ++ u) = if hasKeys t then t ++ keyed u else keyed t := by
  induction t with
  | nil => rfl
  | cons c t ih =>
    by_cases hc : us.HasKey c
    · have hkeyed : ∀ v : Text, keyed (c :: v) = c :: keyed v := fun v ↦ by simp [keyed, hc]
      have hkeys : hasKeys (c :: t) = hasKeys t := by simp [hasKeys, hc]
      rw [List.cons_append, hkeyed, hkeyed, ih, hkeys]
      split <;> rfl
    · have hkeys : hasKeys (c :: t) = false := by simp [hasKeys, hc]
      rw [hkeys, if_neg Bool.false_ne_true]
      simp [keyed, hc]

/-- A text whose characters have keys is typed as a whole. -/
theorem keyed_of_hasKeys {t : Text} (h : hasKeys t = true) : keyed t = t := by
  have happend := keyed_append t []
  rw [if_pos h, List.append_nil] at happend
  exact happend.trans (List.append_nil t)

/-- After a text no key is down, unless nothing was typed. -/
theorem getLastD_textReports (r : KeyReport) (t : Text) :
    (textReports r t).getLastD r = if t = [] then r else .empty := by
  induction t generalizing r with
  | nil => rfl
  | cons c t ih =>
    rw [textReports, getLastD_append, List.getLastD_cons, ih]
    split <;> rfl

/-- The reports of two texts in a row. -/
theorem textReports_append (r : KeyReport) (t u : Text) :
    textReports r (t ++ u) = textReports r t ++ textReports (if t = [] then r else .empty) u := by
  induction t generalizing r with
  | nil => rfl
  | cons c t ih =>
    have hempty : (if t = [] then KeyReport.empty else .empty) = .empty := by split <;> rfl
    rw [List.cons_append, textReports, textReports, ih, hempty, if_neg (List.cons_ne_nil c t),
      List.append_assoc, List.cons_append]

/-- A character takes three reports at most. -/
theorem length_textReports_le (r : KeyReport) (t : Text) :
    (textReports r t).length ≤ 3 * t.length := by
  have hturn : ∀ (codes : List KeyCode) r,
      (KeyReport.pressedInTurn r codes).length = codes.length := by
    intro codes
    induction codes with
    | nil => exact fun r ↦ rfl
    | cons code codes ih => exact fun r ↦ congrArg (· + 1) (ih _)
  induction t generalizing r with
  | nil => exact Nat.le_refl 0
  | cons c t ih =>
    have hcodes : (Stroke.codes ⟨((us.entry c).toNat : Int), false⟩).length ≤ 2 := by
      rw [Stroke.codes_eq]
      split <;> simp
    have hrest := ih .empty
    rw [textReports, List.length_append, hturn, List.length_cons, List.length_cons]
    omega


/-- With no key down, a text is typed by the reports of its numbers. -/
theorem textReports_empty (t : Text) : textReports .empty t = usReports t := by
  have hchar : ∀ n : UInt8, KeyReport.empty.pressedInTurn (Stroke.codes ⟨(n.toNat : Int), false⟩) ++
      [.empty] = reportsFor n := by
    intro n
    rw [Stroke.codes_eq, reportsFor]
    by_cases hn : n < 0x80
    · have hkey := KeyReport.press_single 0 n hn
      rw [if_pos hn, if_pos hn]
      change [((KeyReport.single 0 0).press _).1] ++ _ = _
      rw [hkey]
      rfl
    · have hlow : n &&& 0x7F < 0x80 := by
        rw [UInt8.lt_iff_toNat_lt, UInt8.toNat_and]
        exact Nat.lt_of_le_of_lt Nat.and_le_right (by decide)
      have hkey := KeyReport.press_single 0x02 _ hlow
      rw [if_neg hn, if_neg hn, KeyReport.pressedInTurn, KeyReport.press_shiftKey]
      change [KeyReport.single 0x02 0, ((KeyReport.single 0x02 0).press _).1] ++ _ = _
      rw [hkey]
      rfl
  induction t with
  | nil => rfl
  | cons c t ih =>
    rw [textReports, ih, ← List.singleton_append, ← List.append_assoc, hchar]
    rfl

/-- With no key down, other characters send other reports. -/
theorem keyed_eq_of_textReports {t u : Text}
    (h : textReports .empty (keyed t) = textReports .empty (keyed u)) : keyed t = keyed u := by
  have hkeys : ∀ v : Text, ∀ c ∈ keyed v, us.HasKey c := by
    intro v c hc
    have hkey := List.mem_takeWhile_imp hc
    exact of_decide_eq_true hkey
  have ht := read?_usReports (hkeys t)
  rw [← textReports_empty, h, textReports_empty, read?_usReports (hkeys u)] at ht
  exact (Option.some.inj ht).symm

/-- A character without a key is typed by no stroke, and fails. -/
theorem strokes_us_of_not_hasKey {c : Char} (h : ¬ us.HasKey c) :
    ∃ fault, us.strokes c = ([], some fault) := by
  have hentry : us.entry c = 0 := Classical.not_not.mp h
  have hcombined : lastEntry us.combined (c.toNat : Int) = none := rfl
  unfold strokes
  cases hn : us.number c with
  | error fault => exact ⟨fault, rfl⟩
  | ok n =>
    have hzero : n = 0 := by
      unfold number at hn
      split at hn
      · simpa [us, lastEntry] using hn.symm
      · split at hn
        · next key hkey =>
          rw [entry, hkey] at hentry
          obtain rfl : key = 0 := hentry
          exact (Except.ok.inj hn).symm
        · cases hn
    subst hzero
    exact ⟨.noKey c, by rw [hcombined]; rfl⟩

end Layout

end Hid

namespace Script

open Hid (KeyReport KeyCode Layout Stroke)

/-! ### Machines that have sent reports -/

/-- The second machine is the first after it has sent these key reports, apart from its random
numbers and from other events. -/
def Machine.Sent (m : Machine) (reports : List KeyReport) (m' : Machine) : Prop :=
  ∃ random events room, m' = { m with
      keyboard := reports.getLastD m.keyboard
      random
      trace := ⟨m.trace.events ++ events, room⟩ } ∧
    events.toList.filterMap keyReport? = reports

namespace Machine.Sent

variable {m m' m'' : Machine} {reports more : List KeyReport}

/-- Nothing is sent at first. -/
theorem refl (m : Machine) : m.Sent [] m :=
  ⟨m.random, #[], m.trace.room, by rw [Array.append_empty]; rfl, rfl⟩

/-- What is sent adds up. -/
theorem trans (h : m.Sent reports m') (h' : m'.Sent more m'') : m.Sent (reports ++ more) m'' := by
  obtain ⟨random, events, room, rfl, hevents⟩ := h
  obtain ⟨random', events', room', rfl, hevents'⟩ := h'
  refine ⟨random', events ++ events', room', ?_, ?_⟩
  · rw [getLastD_append, Array.append_assoc]
  · rw [Array.toList_append, List.filterMap_append, hevents, hevents']

/-- The keyboard is left with the last report. -/
theorem keyboard (h : m.Sent reports m') : m'.keyboard = reports.getLastD m.keyboard := by
  obtain ⟨random, events, room, rfl, -⟩ := h
  rfl

/-- The reports that were sent are those of the new events. -/
theorem keyReports (h : m.Sent reports m') :
    keyReports m.trace.events.size m'.trace = reports := by
  obtain ⟨random, events, room, rfl, hevents⟩ := h
  rw [Script.keyReports, Array.toList_append, ← Array.length_toList, List.drop_left, hevents]

end Machine.Sent

namespace Macro

variable {α β : Type} {m : Machine} {reports more : List KeyReport} {pauses draws p d : Nat}

/-- The result leaves the machine, with the value if there is one, and with a failure if there is
none. -/
inductive Yields : EStateM.Result (Halt Fault) Machine α → Option α → Machine → Prop where
  | ok (a : α) (m : Machine) : Yields (.ok a m) (some a) m
  | failed (fault : Fault) (m : Machine) : Yields (.error (.failed fault) m) none m

/-- With room for these key reports and pauses and with so many draws, the work sends the reports and
ends, with the value if there is one, and with a failure if there is none. Where it ends well, it has
used up no more than that. -/
def Transmits (act : Macro α) (m : Machine) (value : Option α) (reports : List KeyReport)
    (pauses draws : Nat) : Prop :=
  reports.length + pauses ≤ m.trace.room → draws ≤ m.random.draws →
    ∃ m', Yields (act m) value m' ∧ m.Sent reports m' ∧
      (value ≠ none → m.trace.room ≤ m'.trace.room + (reports.length + pauses) ∧
        m.random.draws ≤ m'.random.draws + draws)

namespace Transmits

/-- A value sends nothing. -/
theorem pure (a : α) (m : Machine) (pauses draws : Nat) :
    Transmits (pure a) m (some a) [] pauses draws := fun _ _ ↦
  ⟨m, .ok a m, .refl m, fun _ ↦ ⟨Nat.le_add_right _ _, Nat.le_add_right _ _⟩⟩

/-- A failure sends nothing. -/
theorem fail (fault : Fault) (m : Machine) : Transmits (fail fault : Macro α) m none [] 0 0 :=
  fun _ _ ↦ ⟨m, .failed fault m, .refl m, fun h ↦ absurd rfl h⟩

/-- More may be spent. -/
theorem mono {act : Macro α} {value : Option α} (h : Transmits act m value reports pauses draws)
    (hp : pauses ≤ p) (hd : draws ≤ d) : Transmits act m value reports p d := by
  intro hroom hdraws
  obtain ⟨m', hr, hs, hspent⟩ := h (by omega) (by omega)
  refine ⟨m', hr, hs, fun hv ↦ ?_⟩
  have := hspent hv
  omega

/-- Work in sequence sends what its parts send, and costs what they cost. -/
theorem seq {act : Macro α} {next : α → Macro β} {a : α} {value : Option β}
    (h : Transmits act m (some a) reports pauses draws)
    (hn : ∀ m', m.Sent reports m' → Transmits (next a) m' value more p d) :
    Transmits (act >>= next) m value (reports ++ more) (pauses + p) (draws + d) := by
  intro hroom hdraws
  rw [List.length_append] at hroom ⊢
  obtain ⟨m₁, h₁, hsent, hspent⟩ := h (by omega) (by omega)
  obtain ⟨hroom₁, hdraws₁⟩ := hspent (Option.some_ne_none a)
  obtain ⟨m₂, h₂, hmore, hspent'⟩ := hn m₁ hsent (by omega) (by omega)
  generalize hr : act m = r at h₁
  cases h₁
  rw [bind_of_ok hr]
  refine ⟨m₂, h₂, hsent.trans hmore, fun hv ↦ ?_⟩
  have := hspent' hv
  omega

/-- Work in sequence sends what its first part sends, where that one fails. -/
theorem bind_none {act : Macro α} {next : α → Macro β}
    (h : Transmits act m none reports pauses draws) :
    Transmits (act >>= next) m none reports pauses draws := by
  intro hroom hdraws
  obtain ⟨m', hr, hs⟩ := h hroom hdraws
  generalize hact : act m = r at hr
  cases hr with
  | failed fault =>
    rw [bind_of_error hact]
    exact ⟨m', .failed fault m', hs.1, fun h ↦ absurd rfl h⟩

/-- Work that makes no pause and draws nothing goes before other work. -/
theorem bind {act : Macro α} {next : α → Macro β} {a : α} {value : Option β}
    (h : Transmits act m (some a) reports 0 0)
    (hn : ∀ m', m.Sent reports m' → Transmits (next a) m' value more pauses draws) :
    Transmits (act >>= next) m value (reports ++ more) pauses draws :=
  (seq h hn).mono (Nat.zero_add pauses).le (Nat.zero_add draws).le

/-- Work that costs a draw goes before other work. -/
theorem draw {act : Macro α} {next : α → Macro β} {a : α} {value : Option β}
    (h : Transmits act m (some a) [] 0 1)
    (hn : ∀ m', m.Sent [] m' → Transmits (next a) m' value reports pauses draws) :
    Transmits (act >>= next) m value reports pauses (draws + 1) :=
  (seq h hn).mono (Nat.zero_add pauses).le (Nat.add_comm 1 draws).le

/-- Work that costs a pause goes before other work. -/
theorem pause {act : Macro α} {next : α → Macro β} {a : α} {value : Option β}
    (h : Transmits act m (some a) [] 1 0)
    (hn : ∀ m', m.Sent [] m' → Transmits (next a) m' value reports pauses draws) :
    Transmits (act >>= next) m value reports (pauses + 1) draws :=
  (seq h hn).mono (Nat.add_comm 1 pauses).le (Nat.zero_add draws).le

/-- A value in the end costs nothing. -/
theorem finish {act : Macro α} {next : α → Macro β} {a : α} {b : β}
    (h : Transmits act m (some a) reports pauses draws) (hn : next a = Pure.pure b) :
    Transmits (act >>= next) m (some b) reports pauses draws := by
  rw [← List.append_nil reports]
  refine seq (p := 0) (d := 0) h fun m' _ ↦ ?_
  rw [hn]
  exact pure b m' 0 0

/-- With enough room and draws the work fails, or it ends and has used up no more. -/
theorem cases {act : Macro α} {value : Option α} (h : Transmits act m value reports pauses draws)
    (hroom : reports.length + pauses ≤ m.trace.room) (hdraws : draws ≤ m.random.draws) :
    (∃ fault m', act m = .error (.failed fault) m') ∨ ∃ a m', act m = .ok a m' ∧
      m.Sent reports m' ∧ m.trace.room ≤ m'.trace.room + (reports.length + pauses) := by
  obtain ⟨m', hyields, hsent, hspent⟩ := h hroom hdraws
  generalize act m = r at hyields
  cases hyields with
  | ok a => exact .inr ⟨a, m', rfl, hsent, (hspent (Option.some_ne_none a)).1⟩
  | failed fault => exact .inl ⟨fault, m', rfl⟩

end Transmits

/-- Changing the value leaves what is sent. -/
theorem transmits_map {act : Macro α} {value : Option α}
    (h : Transmits act m value reports pauses draws) (f : α → β) :
    Transmits (act >>= fun a ↦ pure (f a)) m (value.map f) reports pauses draws := by
  cases value with
  | none => exact h.bind_none
  | some a => exact h.finish rfl

/-! ### Keys and texts -/

/-- Work on the keyboard in sequence. -/
theorem onKeyboard_bind (act : Act KeyReport α) (next : α → Act KeyReport β) :
    onKeyboard (act >>= next) = onKeyboard act >>= fun a ↦ onKeyboard (next a) := by
  funext m
  cases h : act ⟨m.keyboard, m.trace⟩ with
  | ok a port =>
    have hact : onKeyboard act m = .ok a { m with keyboard := port.report, trace := port.trace } := by
      unfold onKeyboard
      rw [h]
    rw [bind_of_ok hact]
    unfold onKeyboard
    rw [bind_of_ok h]
  | error halt port =>
    have hact : onKeyboard act m =
        .error (halt.map .device) { m with keyboard := port.report, trace := port.trace } := by
      unfold onKeyboard
      rw [h]
    rw [bind_of_error hact]
    unfold onKeyboard
    rw [bind_of_error h]

/-- A report that is set and sent is the one that stands. -/
theorem transmits_setReport_emit (r : KeyReport) (m : Machine) :
    Transmits (onKeyboard (do Act.setReport r; Act.emit (.key r))) m (some ()) [r] 0 0 := by
  have hset : (do Act.setReport r; Act.emit (.key r) : Act KeyReport Unit) ⟨m.keyboard, m.trace⟩ =
      Act.emit (.key r) ⟨r, m.trace⟩ := rfl
  intro hroom _
  unfold onKeyboard
  rw [hset]
  unfold Act.emit
  cases hr : m.trace.room with
  | zero => simp [hr] at hroom
  | succ room =>
    exact ⟨_, .ok _ _, ⟨m.random, #[.key r], room, rfl, rfl⟩, fun _ ↦ ⟨Nat.le_refl _, Nat.le_refl _⟩⟩

/-- Pressing a key that fits a byte sends the report with the key down. -/
theorem transmits_press (key : UInt8) (m : Machine) :
    Transmits (onKeyboard (Hid.Keyboard.press [(key.toNat : Int)])) m (some ())
      [(m.keyboard.press key.toNat).1] 0 0 := by
  have haccepted := m.keyboard.press_byte_accepted key
  have hall : m.keyboard.pressAll [(key.toNat : Int)] = ((m.keyboard.press key.toNat).1, none) := by
    rw [KeyReport.pressAll]
    split
    · next h => rw [h]; rfl
    · next h => rw [h] at haccepted; cases haccepted
  have hpress : Hid.Keyboard.press [(key.toNat : Int)] ⟨m.keyboard, m.trace⟩ =
      (do Act.setReport (m.keyboard.press key.toNat).1
          Act.emit (.key (m.keyboard.press key.toNat).1) : Act KeyReport Unit)
        ⟨m.keyboard, m.trace⟩ := by
    rw [Hid.Keyboard.press, bind_of_ok (run_get _), hall]
    rfl
  have hsent := transmits_setReport_emit (m.keyboard.press key.toNat).1 m
  unfold Transmits onKeyboard at hsent ⊢
  rwa [hpress]

/-- Releasing a key sends the report with the key up. -/
theorem transmits_release (code : KeyCode) (m : Machine) :
    Transmits (onKeyboard (Hid.Keyboard.release [code])) m (some ())
      [m.keyboard.release code] 0 0 := transmits_setReport_emit (m.keyboard.release code) m

private theorem transmits_releaseAll (m : Machine) :
    Transmits (onKeyboard Hid.Keyboard.releaseAll) m (some ()) [.empty] 0 0 :=
  transmits_setReport_emit .empty m

/-- Keys that fit a byte send their reports one after the other. -/
theorem transmits_presses {codes : List KeyCode}
    (h : ∀ code ∈ codes, ∃ key : UInt8, code = (key.toNat : Int)) (m : Machine) :
    Transmits (onKeyboard (codes.forM fun code ↦ Hid.Keyboard.press [code])) m (some ())
      (m.keyboard.pressedInTurn codes) 0 0 := by
  induction codes generalizing m with
  | nil => exact .pure () m 0 0
  | cons code rest ih =>
    obtain ⟨key, rfl⟩ := h code List.mem_cons_self
    change Transmits (onKeyboard (_ >>= fun _ ↦ rest.forM fun code ↦ _)) m _ _ _ _
    rw [onKeyboard_bind]
    refine (transmits_press key m).bind fun m' hm' ↦ ?_
    have hkeyboard : m'.keyboard = (m.keyboard.press key.toNat).1 := hm'.keyboard
    rw [← hkeyboard]
    exact ih (fun c hc ↦ h c (List.mem_cons_of_mem _ hc)) m'

/-- Characters with keys send their reports, and the first without one fails. -/
theorem transmits_typeText (t : Text) (m : Machine) :
    Transmits (typeText t) m (if Layout.hasKeys t then some () else none)
      (Layout.textReports m.keyboard (Layout.keyed t)) 0 0 := by
  induction t generalizing m with
  | nil => exact .pure () m 0 0
  | cons c t ih =>
    have hcons : typeText (c :: t) = onKeyboard (Layout.us.typeChar c) >>= fun _ ↦ typeText t := by
      change onKeyboard ((Layout.us.typeChar c >>= fun _ ↦ pure ()) >>= fun _ ↦
        Layout.us.typeText none t) = _
      rw [bind_pure_unit, onKeyboard_bind]
      rfl
    rw [hcons]
    by_cases hc : Layout.us.HasKey c
    · have hstroke : Layout.us.typeChar c =
          Layout.typeStroke ⟨((Layout.us.entry c).toNat : Int), false⟩ := by
        rw [Layout.typeChar, Layout.strokes_us hc]
        change (Layout.typeStroke _ >>= fun _ ↦ pure ()) >>= (fun _ ↦ pure ()) = _
        rw [bind_pure_unit, bind_pure_unit]
      have hkeyed : Layout.keyed (c :: t) = c :: Layout.keyed t := by simp [Layout.keyed, hc]
      rw [hkeyed, Layout.textReports, List.append_cons, hstroke]
      refine Transmits.bind (a := ()) ?_ fun m' hm' ↦ ?_
      · rw [Layout.typeStroke_eq_forM, onKeyboard_bind]
        exact (transmits_presses (Stroke.codes_byte _ false) m).bind fun m' _ ↦
          transmits_releaseAll m'
      · have hempty : m'.keyboard = .empty := by
          rw [hm'.keyboard, getLastD_append]
          rfl
        have hkeys : Layout.hasKeys (c :: t) = Layout.hasKeys t := by simp [Layout.hasKeys, hc]
        rw [← hempty, hkeys]
        exact ih m'
    · obtain ⟨fault, hfault⟩ := Layout.strokes_us_of_not_hasKey hc
      have hfail : Layout.us.typeChar c = Act.fail fault := by
        rw [Layout.typeChar, hfault]
        rfl
      have hkeyed : Layout.keyed (c :: t) = [] := by simp [Layout.keyed, hc]
      have hkeys : Layout.hasKeys (c :: t) = false := by simp [Layout.hasKeys, hc]
      rw [hfail, hkeyed, hkeys, if_neg Bool.false_ne_true]
      exact .bind_none (.fail (.device fault) m)

/-- Enter, with no key down, sends the reports of a line feed. -/
theorem transmits_typeEnter {m : Machine} (hm : m.keyboard = .empty) :
    Transmits typeEnter m (some ()) (Layout.textReports .empty ['\n']) 0 0 := by
  have hpress := transmits_press 0x28 m
  have hreports : Layout.textReports .empty ['\n'] =
      [(KeyReport.empty.press 0x28).1] ++ [((KeyReport.empty.press 0x28).1.release 0x28)] := by
    decide
  rw [hm] at hpress
  rw [hreports]
  refine hpress.bind fun m' hm' ↦ ?_
  have hkeyboard : m'.keyboard = (KeyReport.empty.press 0x28).1 := hm'.keyboard
  rw [← hkeyboard]
  exact transmits_release 0x28 m'

end Macro

/-! ### Texts in a row -/

/-- What ends a line that is typed. -/
def lineEnd (enter : Bool) : Text := if enter then ['\n'] else []

/-- The characters that are typed for several texts, each with its end, up to the first that has no
key. -/
def typable (enter : Bool) (texts : List Text) : Text :=
  Layout.keyed (texts.flatMap (· ++ lineEnd enter))

private theorem hasKeys_lineEnd (enter : Bool) : Layout.hasKeys (lineEnd enter) = true := by
  cases enter <;> decide

/-- The characters of a first text, and if all of them have keys, the end of the line and what is
typed for the others. -/
theorem typable_cons (enter : Bool) (t : Text) (texts : List Text) :
    typable enter (t :: texts) = if Layout.hasKeys t then
      t ++ (lineEnd enter ++ typable enter texts) else Layout.keyed t := by
  rw [typable, List.flatMap_cons, List.append_assoc, Layout.keyed_append, Layout.keyed_append,
    if_pos (hasKeys_lineEnd enter)]
  rfl

/-- The machine has no key down, or what it is going to type does not begin with a line feed. -/
def Machine.Opens (m : Machine) (t : Text) : Prop := m.keyboard = .empty ∨ t.head? ≠ some '\n'

namespace Macro

private theorem transmits_lineEnd {m : Machine} {enter : Bool}
    (h : enter = true → m.keyboard = .empty) :
    Transmits (if enter then typeEnter else pure ()) m (some ())
      (Layout.textReports m.keyboard (lineEnd enter)) 0 0 := by
  cases enter with
  | false => exact .pure () m 0 0
  | true =>
    have hm := h rfl
    rw [hm]
    exact transmits_typeEnter hm

/-- A line that is typed goes before others. -/
theorem transmits_line_bind {m : Machine} {enter : Bool} {t : Text} {texts : List Text}
    (h : m.Opens (typable enter (t :: texts))) {β : Type} {next : Macro β} {b : β} {pauses draws : Nat}
    (hn : ∀ m' reports, m.Sent reports m' → m'.Opens (typable enter texts) →
      Transmits next m' (if texts.all Layout.hasKeys then some b else none)
        (Layout.textReports m'.keyboard (typable enter texts)) pauses draws) :
    Transmits (typeText t >>= fun _ ↦ (if enter then typeEnter else pure ()) >>= fun _ ↦ next) m
      (if (t :: texts).all Layout.hasKeys then some b else none)
      (Layout.textReports m.keyboard (typable enter (t :: texts))) pauses draws := by
  have htyped := transmits_typeText t m
  rw [typable_cons] at h ⊢
  rw [List.all_cons]
  by_cases ht : Layout.hasKeys t = true
  · rw [if_pos ht, Layout.keyed_of_hasKeys ht] at htyped
    rw [if_pos ht] at h ⊢
    rw [ht, Bool.true_and, Layout.textReports_append]
    refine htyped.bind fun m₁ h₁ ↦ ?_
    have hleft := h₁.keyboard
    rw [Layout.getLastD_textReports] at hleft
    rw [← hleft, Layout.textReports_append]
    -- enter is only typed with a key down if nothing was typed before it
    have hempty : enter = true → m₁.keyboard = .empty := by
      rintro rfl
      rw [hleft]
      split
      · next hnil =>
        subst hnil
        exact h.resolve_right fun hne ↦ hne rfl
      · rfl
    refine (transmits_lineEnd hempty).bind fun m₂ h₂ ↦ ?_
    have hlast := h₂.keyboard
    rw [Layout.getLastD_textReports] at hlast
    rw [← hlast]
    refine hn m₂ _ (h₁.trans h₂) ?_
    cases enter with
    | true => exact .inl hlast
    | false =>
      by_cases hnil : t = []
      · subst hnil
        rw [Machine.Opens, hlast, hleft]
        exact h
      · exact .inl (hlast.trans (hleft.trans (if_neg hnil)))
  · rw [if_neg ht] at htyped
    rw [if_neg ht, eq_false_of_ne_true ht, Bool.false_and, if_neg Bool.false_ne_true]
    exact htyped.bind_none.mono (Nat.zero_le _) (Nat.zero_le _)

end Macro

end Script

end Deskhand
