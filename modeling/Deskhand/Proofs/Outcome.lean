import Deskhand.Event
import Mathlib.Order.Defs.Unbundled

/-!
# How work ends

Work on a state ends with a value, with a failure of its own, or because its allowance is used up.
`Ends` says what holds of the state in the first two cases and asks nothing in the third; `Keeps`
says it of a relation between the state before and the state after; `Follows` compares work in a
state with work in the image of that state.
-/

namespace Deskhand

variable {δ σ α β : Type}

/-- Work in sequence goes on from the value and the state of its first part. -/
theorem bind_of_ok {ε : Type} {act : EStateM ε σ α} {next : α → EStateM ε σ β} {s s' : σ} {a : α}
    (h : act s = .ok a s') : (act >>= next) s = next a s' := by
  change EStateM.bind act next s = _
  unfold EStateM.bind
  rw [h]

/-- Work in sequence stops where its first part does. -/
theorem bind_of_error {ε : Type} {act : EStateM ε σ α} {next : α → EStateM ε σ β} {s s' : σ} {e : ε}
    (h : act s = .error e s') : (act >>= next) s = .error e s' := by
  change EStateM.bind act next s = _
  unfold EStateM.bind
  rw [h]

/-- Work in sequence that ends well has parts that do. -/
theorem exists_of_bind_ok {ε : Type} {act : EStateM ε σ α} {next : α → EStateM ε σ β} {s s' : σ}
    {b : β} (h : (act >>= next) s = .ok b s') :
    ∃ a s₁, act s = .ok a s₁ ∧ next a s₁ = .ok b s' := by
  cases ha : act s with
  | ok a s₁ => exact ⟨a, s₁, rfl, (bind_of_ok ha).symm.trans h⟩
  | error e s₁ =>
    rw [bind_of_error ha] at h
    cases h

/-- Looking at the state gives the state. -/
theorem run_get {ε : Type} (s : σ) : (get : EStateM ε σ σ) s = .ok s s := rfl

/-- The state that work leaves, whichever way it ends. -/
def leftState : EStateM.Result (Halt δ) σ α → σ
  | .ok _ s => s
  | .error _ s => s

/-- A value leaves a state in `Q` and a failure one in `E`; a used-up allowance promises nothing. -/
inductive Ends (Q : α → σ → Prop) (E : σ → Prop) : EStateM.Result (Halt δ) σ α → Prop where
  | ok {a : α} {s : σ} (h : Q a s) : Ends Q E (.ok a s)
  | failed {e : δ} {s : σ} (h : E s) : Ends Q E (.error (.failed e) s)
  | exhausted {s : σ} : Ends Q E (.error .exhausted s)

namespace Ends

variable {Q Q' : α → σ → Prop} {E E' : σ → Prop}

/-- What a result ends in may be weakened. -/
theorem mono {r : EStateM.Result (Halt δ) σ α} (h : Ends Q E r) (hQ : ∀ a s, Q a s → Q' a s)
    (hE : ∀ s, E s → E' s) : Ends Q' E' r := by
  cases h with
  | ok h => exact .ok (hQ _ _ h)
  | failed h => exact .failed (hE _ h)
  | exhausted => exact .exhausted

/-- A failure that no state is in does not come about. -/
theorem ne_failed {r : EStateM.Result (Halt δ) σ α} (h : Ends Q (fun _ ↦ False) r) (e : δ) (s : σ) :
    r ≠ .error (.failed e) s := by
  rintro rfl
  cases h with
  | failed h => exact h

/-- Work in sequence ends as its second part does from where the first one ends. -/
theorem bind {P : β → σ → Prop} {act : EStateM (Halt δ) σ α} {next : α → EStateM (Halt δ) σ β}
    {s : σ} (h : Ends (fun a s' ↦ Ends P E (next a s')) E (act s)) :
    Ends P E ((act >>= next) s) := by
  generalize hr : act s = r at h
  cases h with
  | ok h =>
    rw [bind_of_ok hr]
    exact h
  | failed h =>
    rw [bind_of_error hr]
    exact .failed h
  | exhausted =>
    rw [bind_of_error hr]
    exact .exhausted

/-- Work in sequence, when all that matters of the first part is the state it leaves. -/
theorem seq {P : β → σ → Prop} {I : σ → Prop} {act : EStateM (Halt δ) σ α}
    {next : α → EStateM (Halt δ) σ β} {s : σ} (h : Ends (fun _ ↦ I) E (act s))
    (hn : ∀ a s', I s' → Ends P E (next a s')) : Ends P E ((act >>= next) s) :=
  bind (h.mono (fun a s' hs ↦ hn a s' hs) fun _ hs ↦ hs)

/-- Going through a list keeps what each item keeps, `I` being told the items still to come. -/
theorem forM {I : List β → σ → Prop} {act : β → EStateM (Halt δ) σ PUnit}
    (h : ∀ b rest s, I (b :: rest) s → Ends (fun _ ↦ I rest) E (act b s)) (items : List β) :
    ∀ s, I items s → Ends (fun _ ↦ I []) E (items.forM act s) := by
  induction items with
  | nil => exact fun s hs ↦ .ok hs
  | cons b rest ih =>
    intro s hs
    exact seq (h b rest s hs) fun _ s' hs' ↦ ih s' hs'

end Ends

/-- Whichever way it ends, the state after the work is related to the one before it. -/
structure Keeps (R : σ → σ → Prop) (act : EStateM (Halt δ) σ α) : Prop where
  ends : ∀ s, Ends (fun _ ↦ R s) (R s) (act s)

namespace Keeps

variable {R : σ → σ → Prop}

/-- If work ends well, the state after it is related to the one before it. -/
theorem of_ok {act : EStateM (Halt δ) σ α} (h : Keeps R act) {s s' : σ} {a : α}
    (hok : act s = .ok a s') : R s s' := by
  have hends := h.ends s
  rw [hok] at hends
  cases hends with
  | ok h => exact h

/-- What is kept implies something else that is kept. -/
theorem mono {S : σ → σ → Prop} {act : EStateM (Halt δ) σ α} (h : Keeps R act)
    (hS : ∀ s s', R s s' → S s s') : Keeps S act :=
  ⟨fun s ↦ (h.ends s).mono (fun _ ↦ hS s) (hS s)⟩

/-- Work that ends early because its allowance is used up keeps anything. -/
theorem exhausted : Keeps R (throw .exhausted : EStateM (Halt δ) σ α) := ⟨fun _ ↦ .exhausted⟩

/-- Work that replaces the state keeps what the replacement keeps. -/
theorem modify {f : σ → σ} (h : ∀ s, R s (f s)) : Keeps R (modify f : EStateM (Halt δ) σ PUnit) :=
  ⟨fun s ↦ .ok (h s)⟩

variable [IsPreorder σ R]

/-- A value keeps the state. -/
theorem pure (a : α) : Keeps R (pure a : EStateM (Halt δ) σ α) := ⟨fun s ↦ .ok (refl_of R s)⟩

/-- A failure keeps the state. -/
theorem failed (e : δ) : Keeps R (throw (.failed e) : EStateM (Halt δ) σ α) :=
  ⟨fun s ↦ .failed (refl_of R s)⟩

/-- Looking at the state keeps it. -/
theorem get : Keeps R (get : EStateM (Halt δ) σ σ) := ⟨fun s ↦ .ok (refl_of R s)⟩

/-- Work in sequence keeps what both parts keep. -/
theorem bind {act : EStateM (Halt δ) σ α} {next : α → EStateM (Halt δ) σ β} (ha : Keeps R act)
    (hn : ∀ a, Keeps R (next a)) : Keeps R (act >>= next) := by
  refine ⟨fun s ↦ Ends.seq (ha.ends s) fun a s' hs ↦ ?_⟩
  exact ((hn a).ends s').mono (fun _ _ h ↦ trans_of R hs h) fun _ h ↦ trans_of R hs h

/-- Going through a list keeps what each item keeps. -/
theorem forM {act : β → EStateM (Halt δ) σ PUnit} (h : ∀ b, Keeps R (act b)) (items : List β) :
    Keeps R (items.forM act) := by
  induction items with
  | nil => exact pure _
  | cons b rest ih => exact bind (h b) fun _ ↦ ih

end Keeps

/-- Two results with the same value or failure, the state of the second being the image of the state
of the first. Where the first allowance is used up, so is the second, unless there is some to spare:
then the second result may be any. -/
inductive Alike (spare : Prop) (w : σ → σ) :
    EStateM.Result (Halt δ) σ α → EStateM.Result (Halt δ) σ α → Prop where
  | ok (a : α) (s : σ) : Alike spare w (.ok a s) (.ok a (w s))
  | failed (e : δ) (s : σ) : Alike spare w (.error (.failed e) s) (.error (.failed e) (w s))
  | exhausted (s : σ) (r : EStateM.Result (Halt δ) σ α)
      (h : spare ∨ r = .error .exhausted (w s)) : Alike spare w (.error .exhausted s) r

/-- From the image of a state the second work does what the first does from the state. -/
structure Follows (spare : Prop) (w : σ → σ) (act act' : EStateM (Halt δ) σ α) : Prop where
  alike : ∀ s, Alike spare w (act s) (act' (w s))

namespace Follows

variable {spare : Prop} {w : σ → σ}

/-- A value follows itself. -/
theorem pure (a : α) : Follows spare w (pure a : EStateM (Halt δ) σ α) (pure a) :=
  ⟨fun s ↦ .ok a s⟩

/-- A failure follows itself. -/
theorem failed (e : δ) :
    Follows spare w (throw (.failed e) : EStateM (Halt δ) σ α) (throw (.failed e)) :=
  ⟨fun s ↦ .failed e s⟩

/-- A used-up allowance follows itself, and with some to spare anything follows it. -/
theorem exhausted {act' : EStateM (Halt δ) σ α} (h : spare ∨ act' = throw .exhausted) :
    Follows spare w (throw .exhausted) act' :=
  ⟨fun s ↦ .exhausted s _ (h.imp_right fun he ↦ by rw [he]; rfl)⟩

/-- Replacing the state follows a replacement that commutes with the image. -/
theorem modify {f : σ → σ} (h : ∀ s, w (f s) = f (w s)) :
    Follows spare w (modify f : EStateM (Halt δ) σ PUnit) (modify f) := by
  refine ⟨fun s ↦ ?_⟩
  have hok : Alike (δ := δ) spare w (.ok PUnit.unit (f s)) (.ok PUnit.unit (w (f s))) := .ok _ _
  rw [h s] at hok
  exact hok

/-- Work that looks at the state first follows if it does so for each state and its image. -/
theorem get {next next' : σ → EStateM (Halt δ) σ α}
    (h : ∀ s, Follows spare w (next s) (next' (w s))) :
    Follows spare w (get >>= next) (get >>= next') :=
  ⟨fun s ↦ (h s).alike s⟩

/-- Work in sequence follows part by part. -/
theorem bind {act act' : EStateM (Halt δ) σ α} {next next' : α → EStateM (Halt δ) σ β}
    (ha : Follows spare w act act') (hn : ∀ a, Follows spare w (next a) (next' a)) :
    Follows spare w (act >>= next) (act' >>= next') := by
  refine ⟨fun s ↦ ?_⟩
  have hs := ha.alike s
  generalize hr : act s = r at hs
  generalize hr' : act' (w s) = r' at hs
  cases hs with
  | ok a s' =>
    rw [bind_of_ok hr, bind_of_ok hr']
    exact (hn a).alike s'
  | failed e s' =>
    rw [bind_of_error hr, bind_of_error hr']
    exact .failed e s'
  | exhausted s' r' h =>
    rw [bind_of_error hr]
    refine .exhausted s' _ (h.imp_right ?_)
    rintro rfl
    exact bind_of_error hr'

/-- Going through a list follows item by item. -/
theorem forM {act act' : β → EStateM (Halt δ) σ PUnit}
    (h : ∀ b, Follows spare w (act b) (act' b)) (items : List β) :
    Follows spare w (items.forM act) (items.forM act') := by
  induction items with
  | nil => exact pure _
  | cons b rest ih => exact bind (h b) fun _ ↦ ih

end Follows

end Deskhand
