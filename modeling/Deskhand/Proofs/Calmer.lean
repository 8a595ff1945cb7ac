import Deskhand.Proofs.Primitives
import Deskhand.Proofs.Typing

/-!
# Commands that leave no key down

A machine is settled when no media code is down and its key report is well formed. From a settled
machine every command but holding and releasing a key leads to a settled one on which no further key
is down, whether it ends well or fails: typing releases every key, and a line of keys releases what
it pressed.
-/

namespace Deskhand.Script

/-- No media code is down and the key report is well formed. -/
structure Machine.Settled (m : Machine) : Prop where
  media : m.media = .empty
  wellFormed : m.keyboard.WellFormed

/-- A settled machine stays settled, and no further key goes down. -/
def Calmer (m m' : Machine) : Prop :=
  m.Settled → m'.Settled ∧ ∀ code ∈ m'.keyboard.down, code ∈ m.keyboard.down

instance : IsPreorder Machine Calmer where
  refl _ hs := ⟨hs, fun _ hc ↦ hc⟩
  trans _ _ _ h₁ h₂ hs :=
    ⟨(h₂ (h₁ hs).1).1, fun code hc ↦ (h₁ hs).2 code ((h₂ (h₁ hs).1).2 code hc)⟩

private theorem calmer_of_eq {m m' : Machine} (hk : m'.keyboard = m.keyboard)
    (hm : m'.media = m.media) :
    Calmer m m' := fun hs ↦
  ⟨⟨hm.trans hs.media, hk ▸ hs.wellFormed⟩, fun code hc ↦ by rw [hk] at hc; exact hc⟩

private theorem calmer_of_empty {m m' : Machine} (hk : m'.keyboard = .empty)
    (hm : m'.media = m.media) :
    Calmer m m' := fun hs ↦ by
  refine ⟨⟨hm.trans hs.media, hk ▸ Hid.KeyReport.wellFormed_empty⟩, fun code hc ↦ ?_⟩
  rw [hk, Hid.KeyReport.down_empty] at hc
  cases hc

namespace Macro

variable {α : Type} {Q : α → Machine → Prop} {E : Machine → Prop}

/-- Work on the keyboard ends as it does on the keyboard's port. -/
theorem ends_onKeyboard {act : Act Hid.KeyReport α} {m : Machine}
    (h : Ends (fun a p ↦ Q a { m with keyboard := p.report, trace := p.trace })
      (fun p ↦ E { m with keyboard := p.report, trace := p.trace }) (act ⟨m.keyboard, m.trace⟩)) :
    Ends Q E (onKeyboard act m) := by
  unfold onKeyboard
  generalize act ⟨m.keyboard, m.trace⟩ = r at h
  cases h with
  | ok h => exact .ok h
  | failed h => exact .failed h
  | exhausted => exact .exhausted

private theorem ends_onMedia {act : Act Hid.MediaReport α} {m : Machine}
    (h : Ends (fun a p ↦ Q a { m with media := p.report, trace := p.trace })
      (fun p ↦ E { m with media := p.report, trace := p.trace }) (act ⟨m.media, m.trace⟩)) :
    Ends Q E (onMedia act m) := by
  unfold onMedia
  generalize act ⟨m.media, m.trace⟩ = r at h
  cases h with
  | ok h => exact .ok h
  | failed h => exact .failed h
  | exhausted => exact .exhausted

private theorem keeps_typeText (t : Text) : Keeps Calmer (typeText t) := by
  refine ⟨fun m ↦ ends_onKeyboard ?_⟩
  have hstep : ∀ p : Port Hid.KeyReport, p.report = m.keyboard ∨ p.report = .empty →
      Calmer m { m with keyboard := p.report, trace := p.trace } := by
    rintro p (hp | hp)
    · exact calmer_of_eq hp rfl
    · exact calmer_of_empty hp rfl
  exact (Hid.Layout.ends_typeText Hid.Layout.fitsBytes_us t ⟨m.keyboard, m.trace⟩).mono
    (fun _ ↦ hstep) hstep

/-! ### Lines of keys -/

end Macro

/-- A key whose code fits the report it goes into. -/
def Key.Fits : Key → Prop
  | .key code => code < 256
  | .media code => code < 65536

/-- A code found by name is one of the list. -/
theorem exists_mem_of_lookupName {names : List (String × Nat)} {name : Text} {code : Nat}
    (h : Hid.lookupName names name = some code) : ∃ entry ∈ names, entry.2 = code := by
  obtain ⟨entry, he, rfl⟩ := Option.map_eq_some_iff.mp h
  exact ⟨entry, List.mem_of_find?_eq_some he, rfl⟩

/-- The script's own keys fit a byte. -/
theorem scriptKey?_lt {name : Text} {code : Nat} (h : scriptKey? name = some code) :
    code < 256 := by
  obtain ⟨entry, he, rfl⟩ := exists_mem_of_lookupName h
  have hall : ∀ e ∈ scriptKeys, e.2 < 256 := by decide
  exact hall entry he

/-- Every key a line can name fits its report. -/
theorem Key.fits_of_ofName? {name : Text} {key : Key} (h : Key.ofName? name = some key) :
    key.Fits := by
  unfold Key.ofName? at h
  split at h
  · next code hc =>
    cases h
    exact scriptKey?_lt hc
  · split at h
    · next code hc =>
      cases h
      obtain ⟨entry, he, rfl⟩ := exists_mem_of_lookupName hc
      have hall : ∀ e ∈ scriptMediaKeys, e.2 < 65536 := by decide
      exact hall entry he
    · obtain ⟨code, hc, rfl⟩ := Option.map_eq_some_iff.mp h
      obtain ⟨entry, he, rfl⟩ := exists_mem_of_lookupName hc
      have hall : ∀ e ∈ Hid.keyNames, e.2 < 256 := by decide +kernel
      exact hall entry he

/-- The machine on the way through a line of keys that began at `m₀`: what is down beyond what was
down then is among the keys still to be released. -/
structure Machine.Owes (m₀ : Machine) (rest : List Key) (m : Machine) : Prop where
  wellFormed : m.keyboard.WellFormed
  down : ∀ code ∈ m.keyboard.down, code ∈ m₀.keyboard.down ∨ ∃ n : Nat, Key.key n ∈ rest ∧ code = n
  media : m.media = .empty ∨ ∃ n, Key.media n ∈ rest

namespace Machine.Owes

variable {m₀ m : Machine} {rest : List Key}

private theorem of_settled (h : m.Settled) (rest : List Key) : Owes m rest m :=
  ⟨h.wellFormed, fun _ hc ↦ .inl hc, .inl h.media⟩

/-- A machine that owes nothing is as calm as at the beginning. -/
theorem calmer (h : Owes m₀ [] m) :
    m.Settled ∧ ∀ code ∈ m.keyboard.down, code ∈ m₀.keyboard.down := by
  refine ⟨⟨?_, h.wellFormed⟩, fun code hc ↦ ?_⟩
  · rcases h.media with hm | ⟨n, hn⟩
    · exact hm
    · cases hn
  · rcases h.down code hc with hd | ⟨n, hn, _⟩
    · exact hd
    · cases hn

end Machine.Owes

namespace Macro

variable {m₀ : Machine} {E : Machine → Prop}

/-- Pressing a key that will be released does not fail and owes no other. -/
theorem ends_pressKey {key : Key} {rest : List Key} (hf : key.Fits) (hk : key ∈ rest) (m : Machine)
    (h : m₀.Owes rest m) : Ends (fun _ ↦ m₀.Owes rest) E (pressKey key m) := by
  cases key with
  | key code =>
    have hc : (code : Int) = ((code.toUInt8).toNat : Int) := by
      have : code % 256 = code := Nat.mod_eq_of_lt hf
      simp [this]
    obtain ⟨hw, hd⟩ := Hid.KeyReport.press_wellFormed h.wellFormed code.toUInt8
    change Ends _ E (onKeyboard (Hid.Keyboard.press [(code : Int)]) m)
    rw [hc]
    refine ends_onKeyboard ((Hid.Keyboard.ends_press code.toUInt8 ⟨m.keyboard, m.trace⟩).mono ?_
      fun _ he ↦ he)
    intro _ p hp
    rw [hp]
    refine ⟨hw, fun c hm ↦ ?_, h.media⟩
    rcases hd c hm with hm | rfl
    · exact h.down c hm
    · exact .inr ⟨code, hk, hc.symm⟩
  | media code =>
    have hc : (0 : Int) ≤ code ∧ (code : Int) < 65536 := by
      have : code < 65536 := hf
      omega
    have hp := Hid.Media.ends_press (E := fun p ↦ E { m with media := p.report, trace := p.trace })
      code hc ⟨m.media, m.trace⟩
    change Ends _ E (onMedia (Hid.Media.press (code : Int)) m)
    generalize Hid.Media.press (code : Int) = act at hp
    refine ends_onMedia (hp.mono ?_ fun _ he ↦ he)
    exact fun _ p _ ↦ ⟨h.wellFormed, h.down, .inr ⟨code, hk⟩⟩

/-- Releasing the next key leaves the others owed. -/
theorem ends_releaseKey {key : Key} {rest : List Key} (m : Machine) (h : m₀.Owes (key :: rest) m) :
    Ends (fun _ ↦ m₀.Owes rest) E (releaseKey key m) := by
  cases key with
  | key code =>
    obtain ⟨hw, hd⟩ := Hid.KeyReport.release_wellFormed h.wellFormed (code : Int)
    refine ends_onKeyboard ((Hid.Keyboard.ends_release (code : Int) ⟨m.keyboard, m.trace⟩).mono ?_
      fun _ he ↦ he)
    intro _ p hp
    rw [hp]
    refine ⟨hw, fun c hm ↦ ?_, ?_⟩
    · obtain ⟨hm, hne⟩ := hd c hm
      rcases h.down c hm with hm | ⟨n, hn, he⟩
      · exact .inl hm
      · rcases List.mem_cons.mp hn with hn | hn
        · cases hn
          exact absurd he hne
        · exact .inr ⟨n, hn, he⟩
    · rcases h.media with hm | ⟨n, hn⟩
      · exact .inl hm
      · exact .inr ⟨n, by simpa using hn⟩
  | media code =>
    refine ends_onMedia ((Hid.Media.ends_release ⟨m.media, m.trace⟩).mono ?_ fun _ he ↦ he)
    intro _ p hp
    refine ⟨h.wellFormed, fun c hm ↦ ?_, .inl hp⟩
    rcases h.down c hm with hm | ⟨n, hn, he⟩
    · exact .inl hm
    · exact .inr ⟨n, by simpa using hn, he⟩

/-- Pressing keys in order and releasing them in reverse puts no key down for good. -/
theorem keeps_pressKeys {keys : List Key} (hf : ∀ key ∈ keys, key.Fits) :
    Keeps Calmer (do keys.forM pressKey; keys.reverse.forM releaseKey) := by
  refine ⟨fun m ↦ ?_⟩
  by_cases hs : m.Settled
  · -- what is owed is the same while keys go down, and shrinks while they go up
    have hpress : Ends (fun _ ↦ m.Owes keys.reverse) (Calmer m) (keys.forM pressKey m) := by
      refine (Ends.forM (I := fun rest m' ↦ (∀ key ∈ rest, key ∈ keys) ∧ m.Owes keys.reverse m') ?_
        keys m ⟨fun _ hk ↦ hk, .of_settled hs _⟩).mono (fun _ _ h ↦ h.2) fun _ h ↦ h
      intro key rest m' ⟨hm, ho⟩
      have hk : key ∈ keys := hm key (by simp)
      refine (ends_pressKey (hf key hk) (by simpa using hk) m' ho).mono ?_ fun _ h ↦ h
      exact fun _ _ h ↦ ⟨fun k hk ↦ hm k (by simp [hk]), h⟩
    refine Ends.seq hpress fun _ m' ho ↦ ?_
    refine (Ends.forM (I := fun rest m' ↦ m.Owes rest m') ?_ keys.reverse m' ho).mono
      (fun _ _ h _ ↦ h.calmer) fun _ h ↦ h
    exact fun key rest m' h ↦ ends_releaseKey m' h
  · -- nothing is asked of a machine that was not settled
    generalize (do keys.forM pressKey; keys.reverse.forM releaseKey : Macro Unit) m = r
    match r with
    | .ok _ _ => exact .ok fun h ↦ absurd h hs
    | .error (.failed _) _ => exact .failed fun h ↦ absurd h hs
    | .error .exhausted _ => exact .exhausted

private theorem keeps_typeEnter : Keeps Calmer typeEnter := by
  have h : typeEnter = (do [Key.key 0x28].forM pressKey; [Key.key 0x28].reverse.forM releaseKey) := by
    unfold typeEnter
    simp [pressKey, releaseKey, Hid.enterKey]
  rw [h]
  exact keeps_pressKeys (by simp [Key.Fits])

/-- The keys a line names fit their reports, and naming them changes the trace alone. -/
theorem ends_keysOf (words : List Text) (m : Machine) :
    Ends (fun keys m' ↦ (∀ key ∈ keys, key.Fits) ∧ Calmer m m') (Calmer m) (keysOf words m) := by
  have hprint : ∀ line, Keeps Calmer (print line) :=
    keeps_print fun _ _ _ ↦ calmer_of_eq rfl rfl
  induction words generalizing m with
  | nil => exact .ok ⟨by simp, refl_of Calmer m⟩
  | cons word rest ih =>
    cases hk : Key.ofName? (Text.upper word) with
    | some key =>
      have he : keysOf (word :: rest) = keysOf rest >>= fun keys ↦ pure (key :: keys) := by
        simp [keysOf, hk]
      rw [he]
      refine Ends.bind ((ih m).mono ?_ fun _ h ↦ h)
      rintro keys m' ⟨hf, hc⟩
      refine .ok ⟨fun k hm ↦ ?_, hc⟩
      rcases List.mem_cons.mp hm with rfl | hm
      · exact Key.fits_of_ofName? hk
      · exact hf k hm
    | none =>
      have he : keysOf (word :: rest) =
          print ("Unknown key: <".toList ++ Text.upper word ++ ">".toList) >>= fun _ ↦
            keysOf rest := by
        simp [keysOf, hk]
      rw [he]
      refine Ends.seq ((hprint _).ends m) fun _ m' hc ↦ ?_
      exact (ih m').mono (fun _ _ h ↦ ⟨h.1, trans_of Calmer hc h.2⟩) fun _ h ↦ trans_of Calmer hc h

/-- A line of keys leaves no key down. -/
theorem keeps_pressLine (line : Text) : Keeps Calmer (pressLine line) := by
  refine ⟨fun m ↦ Ends.bind ((ends_keysOf _ m).mono ?_ fun _ h ↦ h)⟩
  rintro keys m' ⟨hf, hc⟩
  exact ((keeps_pressKeys hf).ends m').mono (fun _ _ h ↦ trans_of Calmer hc h)
    fun _ h ↦ trans_of Calmer hc h

end Macro

/-! ### Commands -/

/-- A command that neither holds nor releases a key nor executes further lines. -/
def Command.IsPlain : Command → Prop
  | .hold _ | .release _ | .loop _ | .other _ => False
  | _ => True

namespace Macro

/-- Printing, drawing and pausing leave the reports alone. -/
theorem calmer_unobserved (m : Machine) (random : Random) (trace : Trace) :
    Calmer m { m with random, trace } := calmer_of_eq rfl rfl

/-- The parts of plain commands leave no key down, if expressions leave none down. -/
theorem parts_calmer [Evaluator] (he : ∀ t, Keeps Calmer (Evaluator.eval t)) :
    Parts (fun act _ ↦ Keeps Calmer act) Command.IsPlain where
  pure a := Keeps.pure a
  bind ha hn := Keeps.bind ha hn
  fail _ := keeps_fail _
  print line := keeps_print calmer_unobserved line
  pause length := keeps_pause calmer_unobserved length
  typeText t := keeps_typeText t
  typeEnter := keeps_typeEnter
  hold h := h.elim
  release h := h.elim
  releaseAll _ := by
    refine ⟨fun m ↦ ends_onKeyboard ?_⟩
    exact (Hid.Keyboard.ends_releaseAll ⟨m.keyboard, m.trace⟩).mono
      (fun _ p hp ↦ calmer_of_empty hp rfl) fun _ h ↦ h
  replaceVariables _ _ t := keeps_replaceVariables t
  replaceDefines _ t := keeps_replaceDefines t
  drawChar _ := keeps_drawChar calmer_unobserved _
  evaluate _ := keeps_evaluate he _
  assign _ _ := Keeps.modify fun _ ↦ calmer_of_eq rfl rfl
  defaultDelay _ _ := Keeps.modify fun _ ↦ calmer_of_eq rfl rfl
  define _ := Keeps.modify fun _ ↦ calmer_of_eq rfl rfl
  function _ _ := Keeps.modify fun _ ↦ calmer_of_eq rfl rfl

end Macro

end Deskhand.Script
