import Deskhand.Proofs.Margin

/-!
# What one run sends, another sends too

Two runs are compared by the reports they send. As long as neither halts they go on in step, with the
same values and in related states. When the first one halts, for whatever reason, the second one has
sent or still sends what the first one has sent; for this the second may only ever add reports.
-/

namespace Deskhand

variable {δ σ α β : Type}

section View

variable (view : σ → List Event)

/-- Work only adds to what is seen of the state. -/
def Grows (act : EStateM (Halt δ) σ α) : Prop := ∀ s, view s <+: view (leftState (act s))

/-- Two results with the same value in related states; or the first one halts, and what is seen of it
is seen of the second one too. -/
inductive Covered (R : σ → σ → Prop) :
    EStateM.Result (Halt δ) σ α → EStateM.Result (Halt δ) σ α → Prop where
  | ok (a : α) {s s' : σ} (h : R s s') : Covered R (.ok a s) (.ok a s')
  | halted (halt : Halt δ) {s : σ} {r : EStateM.Result (Halt δ) σ α}
      (h : view s <+: view (leftState r)) : Covered R (.error halt s) r

/-- From states that `R` relates the second work covers the first and leads to states that `R'`
relates, and it only adds to what is seen. -/
structure Tracks (R R' : σ → σ → Prop) (act act' : EStateM (Halt δ) σ α) : Prop where
  covered : ∀ s s', R s s' → Covered view R' (act s) (act' s')
  grows : Grows view act'

end View

variable {view : σ → List Event} {R R' R'' : σ → σ → Prop}

namespace Grows

/-- Work in sequence adds what its parts add. -/
theorem bind {act : EStateM (Halt δ) σ α} {next : α → EStateM (Halt δ) σ β} (ha : Grows view act)
    (hn : ∀ a, Grows view (next a)) : Grows view (act >>= next) := by
  intro s
  have hs := ha s
  cases hr : act s with
  | ok a s' =>
    rw [hr] at hs
    rw [bind_of_ok hr]
    exact hs.trans (hn a s')
  | error halt s' =>
    rw [hr] at hs
    rw [bind_of_error hr]
    exact hs

/-- Work that changes nothing that is seen only adds. -/
theorem of_eq {act : EStateM (Halt δ) σ α} (h : ∀ s, view (leftState (act s)) = view s) :
    Grows view act := fun s ↦ ⟨[], by rw [h s, List.append_nil]⟩

end Grows

namespace Tracks

/-- Work from more states, or to fewer. -/
theorem mono {P P' : σ → σ → Prop} {act act' : EStateM (Halt δ) σ α}
    (h : Tracks view R R' act act') (hP : ∀ s s', P s s' → R s s') (hP' : ∀ s s', R' s s' → P' s s') :
    Tracks view P P' act act' := by
  refine ⟨fun s s' hs ↦ ?_, h.grows⟩
  have hcovered := h.covered s s' (hP s s' hs)
  generalize act s = r at hcovered
  generalize act' s' = r' at hcovered
  cases hcovered with
  | ok a hr => exact .ok a (hP' _ _ hr)
  | halted halt hr => exact .halted halt hr

/-- A value covers itself. -/
theorem pure (a : α) (h : ∀ s s', R s s' → R' s s') :
    Tracks view R R' (pure a : EStateM (Halt δ) σ α) (pure a) :=
  ⟨fun s s' hs ↦ .ok a (h s s' hs), .of_eq fun _ ↦ rfl⟩

/-- Work that halts without a change to what is seen is covered by any, if related states look the
same. -/
theorem halts {act act' : EStateM (Halt δ) σ α} (hview : ∀ s s', R s s' → view s' = view s)
    (h : ∀ s, ∃ halt t, act s = .error halt t ∧ view t = view s) (hg : Grows view act') :
    Tracks view R R' act act' := by
  refine ⟨fun s s' hs ↦ ?_, hg⟩
  obtain ⟨halt, t, hr, ht⟩ := h s
  rw [hr]
  refine .halted halt ?_
  rw [ht, ← hview s s' hs]
  exact hg s'

/-- Halting is covered by any work. -/
theorem throw (hview : ∀ s s', R s s' → view s' = view s) (halt : Halt δ)
    {act' : EStateM (Halt δ) σ α} (hg : Grows view act') :
    Tracks view R R' (throw halt) act' :=
  halts hview (fun s ↦ ⟨halt, s, rfl, rfl⟩) hg

/-- Work in sequence is covered part by part, where the values of the first part are all in `P`. -/
theorem bind_of_mem {P : α → Prop} {act act' : EStateM (Halt δ) σ α}
    {next next' : α → EStateM (Halt δ) σ β} (ha : Tracks view R R' act act')
    (hP : ∀ s a t, act s = .ok a t → P a) (hg : ∀ a, Grows view (next' a))
    (hn : ∀ a, P a → Tracks view R' R'' (next a) (next' a)) :
    Tracks view R R'' (act >>= next) (act' >>= next') := by
  refine ⟨fun s s' hs ↦ ?_, ha.grows.bind hg⟩
  have hcovered := ha.covered s s' hs
  generalize hr : act s = r at hcovered
  generalize hr' : act' s' = r' at hcovered
  cases hcovered with
  | ok a h =>
    rw [bind_of_ok hr, bind_of_ok hr']
    exact (hn a (hP s a _ hr)).covered _ _ h
  | halted halt h =>
    rw [bind_of_error hr]
    refine .halted halt ?_
    -- whatever the second run goes on with, it only adds
    cases r' with
    | ok a t =>
      rw [bind_of_ok hr']
      exact h.trans (hg a t)
    | error halt' t =>
      rw [bind_of_error hr']
      exact h

/-- Work in sequence is covered part by part. -/
theorem bind {act act' : EStateM (Halt δ) σ α} {next next' : α → EStateM (Halt δ) σ β}
    (ha : Tracks view R R' act act') (hn : ∀ a, Tracks view R' R'' (next a) (next' a)) :
    Tracks view R R'' (act >>= next) (act' >>= next') :=
  bind_of_mem (P := fun _ ↦ True) ha (fun _ _ _ _ ↦ trivial) (fun a ↦ (hn a).grows) fun a _ ↦ hn a

/-- Work that looks at the state is covered if it is for any two related states. -/
theorem get {next next' : σ → EStateM (Halt δ) σ α} (hg : Grows view (get >>= next'))
    (h : ∀ s s', R s s' → Tracks view R R' (next s) (next' s')) :
    Tracks view R R' (get >>= next) (get >>= next') :=
  ⟨fun s s' hs ↦ (h s s' hs).covered s s' hs, hg⟩

/-- Replacing the state is covered if related states lead to related ones. -/
theorem modify {f f' : σ → σ} (h : ∀ s s', R s s' → R' (f s) (f' s'))
    (hf : ∀ s, view (f' s) = view s) :
    Tracks view R R' (modify f : EStateM (Halt δ) σ PUnit) (modify f') :=
  ⟨fun s s' hs ↦ .ok PUnit.unit (h s s' hs), .of_eq hf⟩

/-- Going through a list is covered item by item. -/
theorem forM {act act' : β → EStateM (Halt δ) σ PUnit}
    (h : ∀ b, Tracks view R R (act b) (act' b)) (items : List β) :
    Tracks view R R (items.forM act) (items.forM act') := by
  induction items with
  | nil => exact pure _ fun _ _ hs ↦ hs
  | cons b rest ih => exact bind (h b) fun _ ↦ ih

end Tracks

/-! ### The devices -/

/-- Whether an event is a report of a device. -/
def Event.isReport : Event → Bool
  | .key _ | .pointer _ | .media _ => true
  | .pause _ | .print _ => false

/-- The reports that were sent, in order. -/
def Trace.sent (trace : Trace) : List Event := trace.events.toList.filter Event.isReport

/-- The same reports were sent, and the second trace has more room by at least `extra`. -/
structure Trace.Near (extra : Nat) (trace trace' : Trace) : Prop where
  sent : trace'.sent = trace.sent
  room : trace.room + extra ≤ trace'.room

variable {ρ : Type}

/-- The reports that were sent through a port. -/
def Port.sent (port : Port ρ) : List Event := port.trace.sent

/-- Ports with the same report and near traces. -/
structure Port.Near (extra : Nat) (port port' : Port ρ) : Prop where
  report : port'.report = port.report
  trace : port.trace.Near extra port'.trace

/-- The same reports were sent through near ports. -/
theorem Port.Near.sent {extra : Nat} {port port' : Port ρ} (h : port.Near extra port') :
    port'.sent = port.sent := h.trace.sent

namespace Act

variable {extra : Nat}

end Act

namespace Hid

variable {extra : Nat}

end Hid

end Deskhand
