import Deskhand.Assistant.Desk
import Deskhand.Proofs.Outcome

/-!
# What a request to publish does

A request is admitted when it carries the laptop's password and a script, and the script is another
one than was sent last unless a repetition is asked for. An admitted request is published if the
broker takes it, with its script in normal form and nothing else changed; any other request leaves
the desk as it was.
-/

namespace Deskhand

/-- Setting a key that is in a table replaces its first value where it stands. -/
theorem Table.put_eq_of_get? {α : Type} {t : Table α} {key : Text} {old : α}
    (h : t.get? key = some old) (value : α) : ∃ before after : Table α,
      t = before ++ (key, old) :: after ∧ key ∉ before.keys ∧
        t.put key value = before ++ (key, value) :: after := by
  induction t with
  | nil => simp [get?] at h
  | cons entry rest ih =>
    obtain ⟨k, v⟩ := entry
    by_cases hk : k = key
    · subst hk
      obtain rfl : v = old := by simpa [get?] using h
      exact ⟨[], rest, rfl, by simp [keys], by simp [put]⟩
    · have hne : (key == k) = false := by simpa using fun he ↦ hk he.symm
      have hrest : Table.get? rest key = some old := by
        simpa [get?, List.lookup_cons, hne] using h
      obtain ⟨before, after, ht, hb, hput⟩ := ih hrest
      refine ⟨(k, v) :: before, after, by rw [ht]; rfl, ?_, ?_⟩
      · simp only [keys, List.map_cons, List.mem_cons, not_or]
        exact ⟨fun he ↦ hk he.symm, hb⟩
      · simp [put, hk, hput]

namespace Broker

variable {s : Settings} {last : Option Text} {request : Json}

/-- A request may be sent, `last` being the script sent last: it carries the laptop's password,
which is not empty, and a script that is a text and not empty, and either it asks for a repetition
or its script in normal form is not the last one. -/
structure Admitted (s : Settings) (last : Option Text) (request : Json) : Prop where
  password : ∃ p, p ≠ [] ∧ s.laptopPassword = some p ∧ request.field? "password" = some (.text p)
  script : ∃ t, t ≠ [] ∧ request.field? "script" = some (.text t)
  fresh : repeats request = true ∨ last ≠ scriptOf? request

/-- A request is authorised by the laptop's password alone. -/
theorem authorised_iff : authorised s request = true ↔
    ∃ p, p ≠ [] ∧ s.laptopPassword = some p ∧ request.field? "password" = some (.text p) := by
  unfold authorised
  split
  · next given password hg hp =>
    constructor
    · intro h
      obtain ⟨hne, he⟩ : given ≠ [] ∧ given = password := by simpa using h
      subst he
      exact ⟨given, hne, hp, hg⟩
    · rintro ⟨p, hne, hs, hf⟩
      obtain rfl : given = p := by simpa using hg.symm.trans hf
      obtain rfl : password = given := by simpa using hp.symm.trans hs
      simpa using hne
  · next hno =>
    simp only [Bool.false_eq_true, false_iff]
    rintro ⟨p, -, hs, hf⟩
    exact hno p p hf hs

/-- A request has a script in normal form exactly when its script is a text that is not empty. -/
theorem scriptOf?_eq_some_iff {script : Text} : scriptOf? request = some script ↔
    ∃ t, t ≠ [] ∧ request.field? "script" = some (.text t) ∧ script = normalise t := by
  unfold scriptOf?
  split
  · next t hf =>
    constructor
    · intro h
      by_cases ht : t = []
      · subst ht
        cases h
      · rw [if_neg (by simpa using ht)] at h
        exact ⟨t, ht, hf, (Option.some.inj h).symm⟩
    · rintro ⟨u, hu, hfu, rfl⟩
      obtain rfl : t = u := Json.text.inj (Option.some.inj (hf.symm.trans hfu))
      exact if_neg (by simpa using hu)
  · next hno =>
    simp only [reduceCtorEq, false_iff]
    rintro ⟨t, -, hf, -⟩
    exact hno t hf

/-- What is accepted are the requests that may be sent, with their message. -/
theorem accept?_eq_some_iff {script : Text} {message : Message} :
    accept? s last request = some (script, message) ↔
      Admitted s last request ∧ scriptOf? request = some script ∧
        message = scriptMessage s request script := by
  constructor
  · intro h
    unfold accept? at h
    split at h
    · next ha =>
      split at h
      · next script' hs =>
        split at h
        · cases h
        · next hr =>
          obtain ⟨rfl, rfl⟩ : script' = script ∧ scriptMessage s request script' = message := by
            simpa using h
          obtain ⟨t, ht, hf, -⟩ := scriptOf?_eq_some_iff.mp hs
          refine ⟨⟨authorised_iff.mp ha, ⟨t, ht, hf⟩, ?_⟩, hs, rfl⟩
          rw [hs]
          cases hrep : repeats request with
          | true => exact .inl rfl
          | false => exact .inr (by simpa [hrep] using hr)
      · cases h
    · cases h
  · rintro ⟨ha, hs, rfl⟩
    unfold accept?
    rw [if_pos (authorised_iff.mpr ha.password), hs]
    have hfresh := ha.fresh
    rw [hs] at hfresh
    rcases hfresh with hr | hl
    · simp [hr]
    · simp [hl]

/-- A request that may be sent has a script in normal form. -/
theorem Admitted.exists_script (h : Admitted s last request) :
    ∃ script, scriptOf? request = some script := by
  obtain ⟨t, ht, hf⟩ := h.script
  exact ⟨normalise t, scriptOf?_eq_some_iff.mpr ⟨t, ht, hf, rfl⟩⟩

/-- What is published for a request is the request itself with only its script replaced by the
normal form. -/
structure Carries (request : Json) (payload : Text) : Prop where
  fields : ∃ before t after, request = .object (before ++ ("script".toList, .text t) :: after) ∧
    "script".toList ∉ Table.keys before ∧
    payload = (Json.object (before ++ ("script".toList, .text (normalise t)) :: after)).write

/-- The message for a request carries it. -/
theorem carries_scriptMessage {script : Text} (h : scriptOf? request = some script) :
    Carries request (scriptMessage s request script).payload := by
  obtain ⟨t, -, hf, rfl⟩ := scriptOf?_eq_some_iff.mp h
  cases request with
  | object fields =>
    obtain ⟨before, after, hfields, hb, hput⟩ :=
      Table.put_eq_of_get? (t := fields) hf (.text (normalise t))
    refine ⟨before, t, after, by rw [hfields], hb, ?_⟩
    change (Json.object (Table.put fields "script" (.text (normalise t)))).write = _
    rw [hput]
  | _ => cases hf

end Broker

/-- A desk with a password for the laptop and a broker that takes messages. -/
def Assistant.Desk.ready : Assistant.Desk where
  settings := {
    modelKey := "key"
    brokerPort := 1883
    scripts := { topic := some "desk/scripts".toList }
    appliances := { topic := some "desk/appliances".toList }
    laptopPassword := some "E1s2t3e4r5".toList }
  clock := ⟨2025, 1, 15, 10, 30⟩
  web := ⟨none, .failed, []⟩
  otherwise := .noChoice

namespace Assistant.Service

variable {d : Desk} {request : Json}

/-- A request that is accepted is published if the broker takes it; nothing else changes the desk.
-/
theorem publishScript_eq (request : Json) (d : Desk) : publishScript request d =
    match Broker.accept? d.settings d.lastCommand request with
    | none => .ok false d
    | some (script, message) =>
      if d.brokerUp then
        .ok true { d with sent := d.sent ++ [message], lastCommand := some script }
      else .ok false d := by
  rw [publishScript, bind_of_ok (run_get d)]
  cases Broker.accept? d.settings d.lastCommand request with
  | none => rfl
  | some found =>
    obtain ⟨script, message⟩ := found
    dsimp only
    split <;> rfl

/-- A request that may be sent is published if the broker takes it. -/
theorem publishScript_of_admitted {script : Text}
    (ha : Broker.Admitted d.settings d.lastCommand request)
    (hs : Broker.scriptOf? request = some script) (hb : d.brokerUp = true) :
    publishScript request d = .ok true { d with
      sent := d.sent ++ [Broker.scriptMessage d.settings request script]
      lastCommand := some script } := by
  rw [publishScript_eq, Broker.accept?_eq_some_iff.mpr ⟨ha, hs, rfl⟩]
  exact if_pos hb

/-- Any other request is answered no, and leaves the desk as it was. -/
theorem publishScript_of_refused
    (h : ¬ (Broker.Admitted d.settings d.lastCommand request ∧ d.brokerUp = true)) :
    publishScript request d = .ok false d := by
  rw [publishScript_eq]
  cases hacc : Broker.accept? d.settings d.lastCommand request with
  | none => rfl
  | some found =>
    obtain ⟨script, message⟩ := found
    have ha := (Broker.accept?_eq_some_iff.mp hacc).1
    exact if_neg fun hb ↦ h ⟨ha, hb⟩

end Assistant.Service

end Deskhand
