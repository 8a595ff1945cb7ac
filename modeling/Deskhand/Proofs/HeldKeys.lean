import Deskhand.Proofs.Calmer
import Deskhand.Proofs.Lifting

/-!
# No key stays down unless it is held

At every end of a line's execution no media code is down, the key report is well formed, and every
key in it was held by a line and not released by one since. The notes of a watched run say which
lines were executed before; each step adds to them what it does to the keyboard, and the run follows
by induction over lines, loops, calls and restarts.
-/

namespace Deskhand.Script

/-- A line that holds the key of a code was begun. -/
def Note.Holds (code : Hid.KeyCode) (n : Note) : Prop :=
  ∃ (name : Text) (key : Nat), n = .began (.hold name) ∧ scriptKey? name = some key ∧ code = key

/-- A line that releases the key of a code was begun. -/
def Note.Releases (code : Hid.KeyCode) (n : Note) : Prop :=
  ∃ (name : Text) (key : Nat), n = .began (.release name) ∧ scriptKey? name = some key ∧ code = key

/-- A line held the key of a code, and no line released it since. -/
def Held (notes : List Note) (code : Hid.KeyCode) : Prop :=
  ∃ earlier n since, notes = earlier ++ n :: since ∧ n.Holds code ∧ ∀ n' ∈ since, ¬ n'.Releases code

/-- A key stays held until it is released. -/
theorem Held.append {notes more : List Note} {code : Hid.KeyCode} (h : Held notes code)
    (hm : ∀ n ∈ more, ¬ n.Releases code) : Held (notes ++ more) code := by
  obtain ⟨earlier, n, since, rfl, hn, hs⟩ := h
  refine ⟨earlier, n, since ++ more, by simp, hn, fun n' h' ↦ ?_⟩
  rcases List.mem_append.mp h' with h' | h'
  · exact hs n' h'
  · exact hm n' h'

/-- After the notes of a run, the machine is settled and every key that is down is held. -/
structure Fits (notes : List Note) (m : Machine) : Prop where
  settled : m.Settled
  held : ∀ code ∈ m.keyboard.down, Held notes code

namespace Fits

variable {notes : List Note} {m m' : Machine}

/-- A fresh machine has no key down. -/
theorem fresh (seed : UInt64) (room draws : Nat) : Fits [] (Machine.fresh seed room draws) := by
  refine ⟨⟨rfl, Hid.KeyReport.wellFormed_empty⟩, fun code hc ↦ ?_⟩
  change code ∈ Hid.KeyReport.empty.down at hc
  rw [Hid.KeyReport.down_empty] at hc
  cases hc

/-- A calmer machine fits as well. -/
theorem calmer (h : Fits notes m) (hc : Calmer m m') : Fits notes m' :=
  ⟨(hc h.settled).1, fun code hm ↦ h.held code ((hc h.settled).2 code hm)⟩

/-- A note that releases no key changes nothing. -/
theorem note (h : Fits notes m) {n : Note} (hn : ∀ code, ¬ n.Releases code) :
    Fits (notes ++ [n]) m := by
  refine ⟨h.settled, fun code hm ↦ (h.held code hm).append fun n' h' ↦ ?_⟩
  rw [List.mem_singleton.mp h']
  exact hn code

private theorem not_releases_ended (halt : Option (Halt Fault)) (m : Machine) (code : Hid.KeyCode) :
    ¬ (Note.ended halt m).Releases code := by
  rintro ⟨name, key, h, _⟩
  cases h

end Fits

/-- Wherever the execution of a line ends in some notes, the machine fits the notes before it. -/
def AllFit (past notes : List Note) : Prop :=
  ∀ before halt m after, notes = before ++ .ended halt m :: after → halt ≠ some .exhausted →
    Fits (past ++ before) m

namespace AllFit

variable {past notes more : List Note}

/-- Without notes there is nothing to fit. -/
theorem nil : AllFit past [] := fun before halt m after h ↦ by simp at h

/-- What is begun need not fit. -/
theorem began (command : Command) : AllFit past [.began command] := fun before halt m after h ↦ by
  rcases before with _ | ⟨n, before⟩
  · simp at h
  · simp at h

/-- A last end of a line fits the notes before it. -/
theorem ended {halt : Option (Halt Fault)} {m : Machine}
    (h : halt ≠ some .exhausted → Fits past m) :
    AllFit past [.ended halt m] := fun before halt' m' after he hne ↦ by
  rcases before with _ | ⟨n, before⟩
  · obtain ⟨⟨rfl, rfl⟩, rfl⟩ : (halt = halt' ∧ m = m') ∧ [] = after := by simpa using he
    simpa using h hne
  · simp at he

/-- Notes fit in sequence. -/
theorem append (h : AllFit past notes) (hm : AllFit (past ++ notes) more) :
    AllFit past (notes ++ more) := fun before halt m after he hne ↦ by
  rcases List.append_eq_append_iff.mp he with ⟨between, rfl, hb⟩ | ⟨between, hb, ha⟩
  · rw [← List.append_assoc]
    exact hm between halt m after hb hne
  · rcases between with _ | ⟨n, between⟩
    · have hfit := hm [] halt m after (by simpa using ha.symm) hne
      simpa [show before = notes by simpa using hb.symm] using hfit
    · obtain ⟨rfl, ha⟩ : n = .ended halt m ∧ after = between ++ more := by
        simpa [eq_comm] using ha
      exact h before halt m between hb hne

end AllFit

/-- Watched work that fits wherever the execution of a line ends, and fits when it ends itself. -/
structure Safe {α : Type} (w : Watched α) : Prop where
  notes : ∀ past m, Fits past m → AllFit past (w m).1
  ends : ∀ past m, Fits past m →
    Ends (fun _ ↦ Fits (past ++ (w m).1)) (Fits (past ++ (w m).1)) (w m).2

namespace Safe

open Watched

variable {α β : Type}

/-- Work of which no note is taken is safe when it leaves the machine calmer. -/
theorem unseen {act : Macro α} (h : Keeps Calmer act) : Safe (unseen act) where
  notes _ _ _ := .nil
  ends past m hf := by
    change Ends (fun _ ↦ Fits (past ++ [])) (Fits (past ++ [])) (act m)
    rw [List.append_nil]
    exact (h.ends m).mono (fun _ _ hc ↦ hf.calmer hc) fun _ hc ↦ hf.calmer hc

/-- A value is safe. -/
theorem pure (a : α) : Safe (pure a : Watched α) := unseen (Keeps.pure a)

/-- A note that releases no key is safe. -/
theorem note {command : Command} (h : ∀ name, command ≠ .release name) :
    Safe (note (.began command)) where
  notes _ _ _ := .began command
  ends past m hf := by
    refine .ok (hf.note ?_)
    rintro code ⟨name, key, hn, _⟩
    exact h name (by simpa using hn)

/-- Safe work in sequence is safe. -/
theorem bind {w : Watched α} {next : α → Watched β} (hw : Safe w) (hn : ∀ a, Safe (next a)) :
    Safe (w >>= next) := by
  constructor
  · intro past m hf
    have hfirst := hw.notes past m hf
    have hends := hw.ends past m hf
    rcases hr : w m with ⟨notes, r⟩
    rw [hr] at hfirst hends
    cases hends with
    | ok h =>
      rw [bind_ok hr]
      exact hfirst.append ((hn _).notes _ _ h)
    | failed h =>
      rw [bind_error hr]
      exact hfirst
    | exhausted =>
      rw [bind_error hr]
      exact hfirst
  · intro past m hf
    have hends := hw.ends past m hf
    rcases hr : w m with ⟨notes, r⟩
    rw [hr] at hends
    cases hends with
    | ok h =>
      rw [bind_ok hr, ← List.append_assoc]
      exact (hn _).ends _ _ h
    | failed h =>
      rw [bind_error hr]
      exact .failed h
    | exhausted =>
      rw [bind_error hr]
      exact .exhausted

/-- Noting how safe work ends is safe. -/
theorem marked {w : Watched α} (hw : Safe w) : Safe (marked w) where
  notes past m hf := by
    refine (hw.notes past m hf).append (.ended fun hne ↦ ?_)
    have hends := hw.ends past m hf
    generalize (w m).2 = r at hends hne
    cases hends with
    | ok h => exact h
    | failed h => exact h
    | exhausted => exact absurd rfl hne
  ends past m hf := by
    change Ends (fun _ ↦ Fits (past ++ ((w m).1 ++ [_]))) (Fits (past ++ ((w m).1 ++ [_]))) (w m).2
    rw [← List.append_assoc]
    exact (hw.ends past m hf).mono (fun _ _ h ↦ h.note (Fits.not_releases_ended _ _))
      fun _ h ↦ h.note (Fits.not_releases_ended _ _)

/-- Going on after a failure of safe work is safe when the handling is. -/
theorem recover {w : Watched Unit} {handle : Fault → Macro Unit} (hw : Safe w)
    (hh : ∀ fault, Safe (Watched.unseen (handle fault))) : Safe (recover w handle) where
  notes := hw.notes
  ends past m hf := by
    have hends := hw.ends past m hf
    change Ends _ _ (Macro.recover (fun _ ↦ (w m).2) handle m)
    unfold Macro.recover
    generalize hn : (w m).1 = notes at hends
    generalize (w m).2 = r at hends
    change Ends (fun _ ↦ Fits (past ++ (w m).1)) (Fits (past ++ (w m).1)) _
    rw [hn]
    cases hends with
    | ok h => exact .ok h
    | failed h =>
      dsimp only
      split
      · exact .failed h
      · simpa only [Watched.unseen, List.append_nil] using (hh _).ends _ _ h
    | exhausted => exact .exhausted

end Safe

/-! ### Steps -/

namespace Watched

variable [Evaluator]

/-- Holding a key puts down at most the key the note tells of. -/
theorem safe_hold (fuel : Nat) (execute : Text → List Text → Macro Nat) (rest : List Text)
    (name : Text) : Safe (do
      note (.began (.hold name))
      unseen (Macro.perform fuel execute rest (.hold name))) := by
  have hnote : ∀ n, Command.hold name ≠ .release n := fun n h ↦ nomatch h
  cases hk : scriptKey? name with
  | none =>
    have hp : Macro.perform fuel execute rest (.hold name) = (do
        Macro.print ("Unknown key to HOLD: <".toList ++ name ++ ">".toList)
        pure 0) := by
      simp [Macro.perform, hk]
    rw [hp]
    refine Safe.bind (Safe.note hnote) fun _ ↦ Safe.unseen ?_
    exact Keeps.bind (Macro.keeps_print Macro.calmer_unobserved _) fun _ ↦ Keeps.pure _
  | some key =>
    have hp : Macro.perform fuel execute rest (.hold name) = (do
        Macro.onKeyboard (Hid.Keyboard.press [(key : Int)])
        pure 0) := by
      simp [Macro.perform, hk]
    have hc : (key : Int) = (key.toUInt8.toNat : Int) := by
      have : key % 256 = key := Nat.mod_eq_of_lt (scriptKey?_lt hk)
      simp [this]
    rw [hp]
    refine ⟨fun past m _ ↦ .began _, fun past m hf ↦ ?_⟩
    change Ends (fun _ ↦ Fits (past ++ [.began (.hold name)])) (Fits (past ++ [.began (.hold name)]))
      ((do Macro.onKeyboard (Hid.Keyboard.press [(key : Int)]); pure 0 : Macro Nat) m)
    rw [hc]
    obtain ⟨hw, hd⟩ := Hid.KeyReport.press_wellFormed hf.settled.wellFormed key.toUInt8
    refine Ends.seq (I := Fits (past ++ [.began (.hold name)])) (Macro.ends_onKeyboard
      ((Hid.Keyboard.ends_press key.toUInt8 ⟨m.keyboard, m.trace⟩).mono ?_ fun _ h ↦ h))
      fun _ _ h ↦ .ok h
    intro _ p hp
    refine ⟨⟨hf.settled.media, by rw [hp]; exact hw⟩, fun code hm ↦ ?_⟩
    rw [hp] at hm
    rcases hd code hm with hm | rfl
    · refine (hf.held code hm).append fun n hn ↦ ?_
      rw [List.mem_singleton.mp hn]
      rintro ⟨_, _, h, _⟩
      cases h
    · exact ⟨past, _, [], rfl, ⟨name, key, rfl, hk, hc.symm⟩, fun _ h ↦ by cases h⟩

/-- Releasing a key takes the key the note tells of up. -/
theorem safe_release (fuel : Nat) (execute : Text → List Text → Macro Nat) (rest : List Text)
    (name : Text) : Safe (do
      note (.began (.release name))
      unseen (Macro.perform fuel execute rest (.release name))) := by
  refine ⟨fun past m _ ↦ .began _, fun past m hf ↦ ?_⟩
  -- a key that is still down is another one than the note tells of
  have hother : ∀ m' : Machine, m'.Settled → (∀ code ∈ m'.keyboard.down, code ∈ m.keyboard.down) →
      (∀ code ∈ m'.keyboard.down, ∀ key : Nat, scriptKey? name = some key → code ≠ key) →
      Fits (past ++ [.began (.release name)]) m' := by
    intro m' hs hdown hne
    refine ⟨hs, fun code hm ↦ (hf.held code (hdown code hm)).append fun n hn ↦ ?_⟩
    rw [List.mem_singleton.mp hn]
    rintro ⟨name', key, h, hk, rfl⟩
    cases h
    exact hne _ hm key hk rfl
  cases hk : scriptKey? name with
  | none =>
    have hp : Macro.perform fuel execute rest (.release name) = (do
        Macro.print ("Unknown key to RELEASE: <".toList ++ name ++ ">".toList)
        pure 0) := by
      simp [Macro.perform, hk]
    rw [hp]
    have hprint := (Macro.keeps_print Macro.calmer_unobserved
      ("Unknown key to RELEASE: <".toList ++ name ++ ">".toList)).ends m
    have hfit : ∀ m', Calmer m m' → Fits (past ++ [.began (.release name)]) m' := fun m' hc ↦
      hother m' (hc hf.settled).1 (hc hf.settled).2 fun _ _ key h ↦ by simp [hk] at h
    exact Ends.seq (I := Fits (past ++ [.began (.release name)]))
      (hprint.mono (fun _ ↦ hfit) hfit) fun _ _ h ↦ .ok h
  | some key =>
    have hp : Macro.perform fuel execute rest (.release name) = (do
        Macro.onKeyboard (Hid.Keyboard.release [(key : Int)])
        pure 0) := by
      simp [Macro.perform, hk]
    rw [hp]
    obtain ⟨hw, hd⟩ := Hid.KeyReport.release_wellFormed hf.settled.wellFormed (key : Int)
    refine Ends.seq (I := Fits (past ++ [.began (.release name)])) (Macro.ends_onKeyboard
      ((Hid.Keyboard.ends_release (key : Int) ⟨m.keyboard, m.trace⟩).mono ?_ fun _ h ↦ h))
      fun _ _ h ↦ .ok h
    intro _ p hp
    refine hother _ ⟨hf.settled.media, by rw [hp]; exact hw⟩ (fun code hm ↦ ?_)
      fun code hm k hk' ↦ ?_
    · rw [hp] at hm
      exact (hd code hm).1
    · rw [hp] at hm
      obtain rfl : key = k := Option.some.inj (hk.symm.trans hk')
      exact (hd code hm).2

end Watched

/-! ### Runs -/

/-- Watched work that is safe, whatever it is compared with. -/
@[reducible]
def Safe.comparison : Comparison where
  Holds w _ := Safe w
  Begins w _ := Safe w
  Fuels := Eq
  Lines := Same fun _ ↦ True
  Prepared := Same fun _ ↦ True
  Rests := AllSame fun _ ↦ True

section Runs

variable [Evaluator] (he : ∀ t, Keeps Calmer (Evaluator.eval t))

include he

/-- Beginning and performing a command that executes no further lines is safe. -/
theorem Watched.safe_single {command : Command} (hs : command.IsSingle) (fuel : Nat)
    (rest : List Text) : Safe (do
      note (.began command)
      unseen (Macro.perform fuel (fun _ _ ↦ pure 0) rest command)) := by
  -- holding and releasing rest on the note just taken
  cases command with
  | hold name => exact safe_hold fuel _ rest name
  | release name => exact safe_release fuel _ rest name
  | loop guard => exact hs.elim
  | other line => exact hs.elim
  | _ =>
    refine Safe.bind (Safe.note fun _ h ↦ nomatch h) fun _ ↦ Safe.unseen ?_
    exact (Macro.parts_calmer he).perform hs (by trivial) fuel fuel _ (fun _ _ ↦ pure 0) fun _ ↦ rfl

/-- Jobs are safe, if expressions leave no key down. -/
theorem Safe.jobs : Safe.comparison.Jobs fun _ ↦ True := by
  have hprint := Macro.keeps_print Macro.calmer_unobserved
  have hget : ∀ {α : Type} {next : Machine → Watched α}, (∀ m, Safe (next m)) →
      Safe (Watched.unseen get >>= next) := fun hn ↦ bind (unseen Keeps.get) hn
  have hother : ∀ {w : Watched Nat} name, Safe w →
      Safe (Watched.note (.began (.other name)) >>= fun _ ↦ w) := fun name hw ↦
    bind (note fun _ h ↦ nomatch h) fun _ ↦ hw
  constructor
  constructor
  constructor
  case pure => exact pure
  case bind => exact bind
  case marked => exact marked
  case exhausted => exact unseen Keeps.exhausted
  case spare => exact fun hf ↦ nomatch hf
  case pred => exact fun hf ↦ ⟨_, hf.symm, rfl⟩
  case succ => exact congrArg (· + 1)
  case rests => exact forall₂_same_iff.mp
  case evaluate => exact fun t ↦ unseen (Macro.keeps_evaluate he t)
  case prepare =>
    exact fun _ hp ↦ bind (unseen (Macro.keeps_prepare Macro.calmer_unobserved _)) fun line ↦
      hp line line ⟨rfl, trivial⟩
  case single => exact fun _ hs _ fuel _ _ ↦ Watched.safe_single he hs fuel _
  case loop => exact fun hp hl ↦ loop_same hp hl
  case begins => exact fun guard hw ↦ bind (note fun _ h ↦ nomatch h) fun _ ↦ hw
  case other =>
    intro line line' name rest rest' fuel fuel' hp hl hc
    refine hother name (hget fun m ↦ ?_)
    cases m.functions.get? name with
    | some body =>
      exact bind (hc body body (forall₂_same_iff.mpr ⟨rfl, fun _ _ ↦ trivial⟩)) fun _ ↦ pure _
    | none => exact bind (unseen (Macro.keeps_pressLine name)) fun _ ↦ pure _
  case body => exact fun hw ↦ hget fun m ↦ hw _ _ ⟨rfl, fun _ _ ↦ trivial⟩
  case draws => exact fun hx ↦ hget fun m ↦ hx _ _ rfl
  case readInt => exact fun t ↦ unseen (Macro.keeps_ofExcept _ _)
  case pause => exact unseen (Macro.keeps_defaultPause Macro.calmer_unobserved)
  case nil => exact ⟨rfl, trivial⟩
  case text => exact fun _ ↦ ⟨rfl, trivial⟩
  case after => exact fun _ ↦ ⟨rfl, fun _ _ ↦ trivial⟩
  case allowance => exact fun ha ↦ hget fun m ↦ ha _ _ rfl
  case print => exact fun line ↦ unseen (hprint line)
  case recover => exact fun hw _ hh ↦ Safe.recover hw hh
  case lines => exact fun lines ↦ unseen (Keeps.forM hprint lines)

end Runs

end Deskhand.Script
