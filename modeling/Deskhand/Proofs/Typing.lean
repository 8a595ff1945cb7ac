import Deskhand.Hid.Layout
import Deskhand.Proofs.KeysDown
import Deskhand.Proofs.Outcome

/-!
# What typing leaves behind

The operations of the keyboard and the media keypad, by the report they leave. A character is typed
by pressing its keys and then releasing every key, and whether it can be typed is known before the
first key goes down; so however typing ends, either it never began or no key is down.
-/

namespace Deskhand.Hid

variable {ρ : Type} {E : Port ρ → Prop}

private theorem ends_emit (event : Event) (port : Port ρ) :
    Ends (fun _ p ↦ p.report = port.report) E (Act.emit event port) := by
  unfold Act.emit
  cases port.trace.room with
  | zero => exact .exhausted
  | succ room => exact .ok rfl

private theorem ends_setReport_emit (report : ρ) (event : Event) (port : Port ρ) :
    Ends (fun _ p ↦ p.report = report) E
      ((do Act.setReport report; Act.emit event : Act ρ Unit) port) :=
  Ends.seq (I := fun p ↦ p.report = report) (.ok rfl) fun _ p hp ↦
    (ends_emit event p).mono (fun _ _ h ↦ h.trans hp) fun _ h ↦ h

namespace Keyboard

variable {E : Port KeyReport → Prop}

/-- Pressing a key that fits a byte does not fail, and leaves the report with the key pressed. -/
theorem ends_press (key : UInt8) (port : Port KeyReport) :
    Ends (fun _ p ↦ p.report = (port.report.press key.toNat).1) E
      (press [(key.toNat : Int)] port) := by
  have ha := port.report.press_byte_accepted key
  have hp : port.report.pressAll [(key.toNat : Int)] =
      ((port.report.press key.toNat).1, none) := by
    simp only [KeyReport.pressAll]
    split
    · next r h => simp [h]
    · next r fault h => simp [h] at ha
  rw [press, bind_of_ok (run_get port), hp]
  exact ends_setReport_emit _ _ port

/-- Releasing a key leaves the report with the key released. -/
theorem ends_release (code : KeyCode) (port : Port KeyReport) :
    Ends (fun _ p ↦ p.report = port.report.release code) E (release [code] port) :=
  ends_setReport_emit (port.report.release code) _ port

/-- Releasing every key leaves the empty report. -/
theorem ends_releaseAll (port : Port KeyReport) :
    Ends (fun _ p ↦ p.report = .empty) E (releaseAll port) :=
  ends_setReport_emit KeyReport.empty _ port

end Keyboard

/-! ### Strokes and texts -/

/-- The keys of a stroke fit a byte when its layout number does. -/
theorem Stroke.codes_byte (n : UInt8) (altGr : Bool) (code : KeyCode)
    (h : code ∈ Stroke.codes ⟨(n.toNat : Int), altGr⟩) : ∃ key : UInt8, code = (key.toNat : Int) := by
  have hand : unshifted (n.toNat : Int) = ((n ^^^ (n &&& 0x80)).toNat : Int) := by
    change Int.ofNat (n.toNat ^^^ (n.toNat &&& 128)) = _
    rw [UInt8.toNat_xor, UInt8.toNat_and]
    rfl
  unfold Stroke.codes at h
  rcases List.mem_append.mp h with h | h
  · split at h
    · exact ⟨0xE6, List.mem_singleton.mp h⟩
    · cases h
  · split at h
    · rcases List.mem_cons.mp h with h | h
      · exact ⟨0xE1, h⟩
      · exact ⟨_, (List.mem_singleton.mp h).trans hand⟩
    · exact ⟨n, List.mem_singleton.mp h⟩

namespace Layout

variable {E : Port KeyReport → Prop}

/-- A stroke whose keys fit a byte does not fail, and leaves no key down. -/
theorem ends_typeStroke (s : Stroke) (h : ∀ code ∈ s.codes, ∃ key : UInt8, code = (key.toNat : Int))
    (port : Port KeyReport) :
    Ends (fun _ p ↦ p.report = .empty) E (typeStroke s port) := by
  -- the keys still to be pressed are among those of the stroke
  have hpress : Ends (fun _ _ ↦ True) E (s.codes.forM (fun code ↦ Keyboard.press [code]) port) := by
    refine (Ends.forM (I := fun rest _ ↦ ∀ code ∈ rest, code ∈ s.codes) ?_ s.codes port
      (fun _ hc ↦ hc)).mono (fun _ _ _ ↦ trivial) fun _ he ↦ he
    intro code rest p hp
    obtain ⟨key, rfl⟩ := h code (hp code (by simp))
    exact (Keyboard.ends_press key p).mono (fun _ _ _ c hc ↦ hp c (by simp [hc])) fun _ he ↦ he
  rw [typeStroke_eq_forM]
  exact Ends.seq hpress fun _ p _ ↦ Keyboard.ends_releaseAll p

/-- The layout number of a character in the table of a layout without further characters is a
byte. -/
theorem us_number (c : Char) (n : Int) (h : us.number c = .ok n) :
    ∃ key : UInt8, n = (key.toNat : Int) := by
  unfold number at h
  split at h
  · have hn : n = 0 := by simpa [us, lastEntry] using h.symm
    exact ⟨0, hn⟩
  · split at h
    · next key _ => exact ⟨key, by simpa using h.symm⟩
    · cases h

/-- A layout types with keys that fit a byte. -/
def FitsBytes (l : Layout) : Prop :=
  ∀ c, ∀ s ∈ (l.strokes c).1, ∀ code ∈ s.codes, ∃ key : UInt8, code = (key.toNat : Int)

/-- A layout that has its table alone types with keys that fit a byte. -/
theorem fitsBytes_us : us.FitsBytes := by
  intro c
  unfold strokes
  cases hn : us.number c with
  | error fault => simp
  | ok n =>
    obtain ⟨key, rfl⟩ := us_number c n hn
    dsimp only
    split
    · intro s hs
      rw [List.mem_singleton.mp hs]
      exact Stroke.codes_byte key _
    · have hc : lastEntry us.combined (c.toNat : Int) = none := by simp [us, lastEntry]
      rw [hc]
      simp

variable {l : Layout}

/-- However typing a character ends, the report is as before or empty. -/
theorem ends_typeChar (hl : l.FitsBytes) (c : Char) (port : Port KeyReport) :
    Ends (fun _ p ↦ p.report = port.report ∨ p.report = .empty)
      (fun p ↦ p.report = port.report ∨ p.report = .empty) (l.typeChar c port) := by
  have hcodes := hl c
  unfold typeChar
  rcases hs : l.strokes c with ⟨strokes, fault⟩
  rw [hs] at hcodes
  dsimp only at hcodes ⊢
  have htyped : Ends (fun _ p ↦ p.report = port.report ∨ p.report = .empty)
      (fun p ↦ p.report = port.report ∨ p.report = .empty) (strokes.forM typeStroke port) := by
    refine (Ends.forM (I := fun rest p ↦ (∀ s ∈ rest, s ∈ strokes) ∧
      (p.report = port.report ∨ p.report = .empty)) ?_ _ port
      ⟨fun _ hm ↦ hm, .inl rfl⟩).mono (fun _ _ hp ↦ hp.2) fun _ hp ↦ hp
    intro s rest p ⟨hm, _⟩
    refine (ends_typeStroke s (hcodes s (hm s (by simp))) p).mono ?_ fun _ he ↦ he
    exact fun _ _ hp ↦ ⟨fun s hs ↦ hm s (by simp [hs]), .inr hp⟩
  refine Ends.seq htyped fun _ p hp ↦ ?_
  cases fault with
  | none => exact .ok hp
  | some fault => exact .failed hp

/-- However typing a text ends, the report is as before or empty. -/
theorem ends_typeText (hl : l.FitsBytes) (t : Text) (port : Port KeyReport) :
    Ends (fun _ p ↦ p.report = port.report ∨ p.report = .empty)
      (fun p ↦ p.report = port.report ∨ p.report = .empty) (l.typeText none t port) := by
  refine Ends.forM (I := fun _ p ↦ p.report = port.report ∨ p.report = .empty) ?_ t port (.inl rfl)
  intro c rest p hp
  have hstep : ∀ p' : Port KeyReport, p'.report = p.report ∨ p'.report = .empty →
      p'.report = port.report ∨ p'.report = .empty := by
    rintro p' (h | h)
    · rw [h]; exact hp
    · exact .inr h
  exact Ends.seq ((ends_typeChar hl c p).mono (fun _ ↦ hstep) hstep) fun _ p' hp' ↦ .ok hp'

end Layout

/-! ### The media keypad -/

namespace Media

variable {E : Port MediaReport → Prop}

/-- Pressing a code of at most sixteen bits does not fail. -/
theorem ends_press (code : Int) (h : 0 ≤ code ∧ code < 65536) (port : Port MediaReport) :
    Ends (fun _ _ ↦ True) E (press code port) := by
  have hp : port.report.press code = (⟨code.toNat.toUInt16⟩, none) := by
    simp [MediaReport.press, h.1, h.2]
  rw [press, bind_of_ok (run_get port), hp]
  exact (ends_setReport_emit _ _ port).mono (fun _ _ _ ↦ trivial) fun _ he ↦ he

/-- Releasing leaves no code down. -/
theorem ends_release (port : Port MediaReport) :
    Ends (fun _ p ↦ p.report = .empty) E (release port) :=
  ends_setReport_emit MediaReport.empty _ port

end Media

end Deskhand.Hid
