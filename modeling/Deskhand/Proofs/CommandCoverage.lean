import Deskhand.Proofs.PasswordGate

/-!
# What a success answer covers

A command may carry a script, wishes for appliances, or both. The first one that is given is
published, if it may be and the broker takes it, and the answer tells of that one alone. So a success
answer covers the whole command exactly if the command does not carry both: the wishes for appliances
are never sent together with a script.
-/

namespace Deskhand.Assistant

open Broker (Admitted Carries Message applianceMessage scriptMessage scriptOf?)
open Service

/-! ### Commands -/

/-- What a command has under a key, if it counts as given. -/
def given? (fields : Table Json) (key : Text) : Option Json :=
  (Table.get? fields key).filter Json.truth

/-- The request to publish a script, with the password and the wish to repeat of a command. -/
def requestFor (fields : Table Json) (script : Json) : Json :=
  .object [("script", script), ("password", (Table.get? fields "password").getD .null),
    ("repeat", (Table.get? fields "repeat").getD (.bool false))]

/-- The request to publish what is wished for appliances. -/
def wishesFor (appliances : Json) : Json := .object [("appliance_controls", appliances)]

/-- What a command carries was published: its script as a message on the topic for scripts, in normal
form and with nothing else changed, and its wishes for appliances as a message on theirs. -/
structure Covers (s : Settings) (fields : Table Json) (messages : List Message) : Prop where
  script : ∀ v, given? fields "ducky_script" = some v →
    ∃ m ∈ messages, m.topic = s.scripts.topic ∧ Carries (requestFor fields v) m.payload
  appliances : ∀ v, given? fields "appliance_controls" = some v →
    ∃ m ∈ messages, m.topic = s.appliances.topic ∧ m.payload = (wishesFor v).write

/-- The first thing that a command carries may be sent, and the broker takes messages. -/
structure Sendable (d : Desk) (fields : Table Json) : Prop where
  up : d.brokerUp = true
  script : ∀ v, given? fields "ducky_script" = some v →
    Admitted d.settings d.lastCommand (requestFor fields v)
  appliances : given? fields "ducky_script" = none → (given? fields "appliance_controls").isSome

/-- An answer that reports a success. -/
def Answer.IsSuccess (answer : Answer) : Prop := ∃ content, answer = .response 200 content

/-- The answer to a command that was published. -/
def published : Answer :=
  .response 200 (notice [("status", "success"), ("message", "Command sent via MQTT")])

/-- The answer to a command that was not published. -/
def unpublished : Answer := problem 500 "Failed to publish command to MQTT"

/-- What becomes of a command: the answer to it and the desk it leaves. -/
inductive Executed (d : Desk) (fields : Table Json) : Answer → Desk → Prop where
  | script {v : Json} {script : Text} (given : given? fields "ducky_script" = some v)
    (admitted : Admitted d.settings d.lastCommand (requestFor fields v))
    (normal : scriptOf? (requestFor fields v) = some script) (up : d.brokerUp = true) :
    Executed d fields published { d with
      sent := d.sent ++ [scriptMessage d.settings (requestFor fields v) script]
      lastCommand := some script }
  | scriptRefused {v : Json} (given : given? fields "ducky_script" = some v)
    (refused : ¬ (Admitted d.settings d.lastCommand (requestFor fields v) ∧ d.brokerUp = true)) :
    Executed d fields unpublished d
  | appliances {v : Json} (noScript : given? fields "ducky_script" = none)
    (given : given? fields "appliance_controls" = some v) (up : d.brokerUp = true) :
    Executed d fields published
      { d with sent := d.sent ++ [applianceMessage d.settings (wishesFor v)] }
  | appliancesRefused {v : Json} (noScript : given? fields "ducky_script" = none)
    (given : given? fields "appliance_controls" = some v) (down : ¬ d.brokerUp = true) :
    Executed d fields unpublished d
  | nothing (noScript : given? fields "ducky_script" = none)
    (noWishes : given? fields "appliance_controls" = none) :
    Executed d fields (problem 400 "No valid command found in payload") d

/-! ### Executing a command -/

section Execute

variable {fields : Table Json} {key : Text}

private theorem getD_of_given? {v : Json} (h : given? fields key = some v) :
    (Table.get? fields key).getD .null = v ∧ v.truth = true := by
  obtain ⟨hget, htruth⟩ := Option.filter_eq_some_iff.mp h
  exact ⟨by rw [hget]; rfl, htruth⟩

private theorem truth_getD_of_given? (h : given? fields key = none) :
    ((Table.get? fields key).getD .null).truth = false := by
  cases hget : Table.get? fields key with
  | none => rfl
  | some v => simpa [given?, hget, Option.filter] using h

private theorem publishAppliances_eq (request : Json) (d : Desk) : publishAppliances request d =
    if d.brokerUp then .ok true { d with sent := d.sent ++ [applianceMessage d.settings request] }
    else .ok false d := by
  rw [publishAppliances, bind_of_ok (run_get d)]
  split <;> rfl

/-- A command is answered by publishing the first thing that it carries. -/
theorem executeCommand_eq {body : Text} (hread : Json.read body = .ok (.object fields)) (d : Desk) :
    executeCommand body d = guarded (problem 500) (do
      let script := (Table.get? fields "ducky_script").getD .null
      let appliances := (Table.get? fields "appliance_controls").getD .null
      if script.truth || appliances.truth then
        let sent ← if script.truth then publishScript (requestFor fields script)
          else publishAppliances (wishesFor appliances)
        if sent then pure published else pure unpublished
      else pure (problem 400 "No valid command found in payload")) d := by
  rw [executeCommand, hread]
  rfl

/-- Every command is answered, and something becomes of it. -/
theorem exists_executed {body : Text} (hread : Json.read body = .ok (.object fields)) (d : Desk) :
    ∃ answer d', executeCommand body d = .ok answer d' ∧ Executed d fields answer d' := by
  rw [executeCommand_eq hread]
  cases hs : given? fields "ducky_script" with
  | some v =>
    obtain ⟨hv, htruth⟩ := getD_of_given? hs
    simp only [hv, htruth, Bool.true_or, if_true]
    by_cases h : Admitted d.settings d.lastCommand (requestFor fields v) ∧ d.brokerUp = true
    · obtain ⟨script, hscript⟩ := h.1.exists_script
      rw [guarded, bind_of_ok (publishScript_of_admitted h.1 hscript h.2)]
      exact ⟨_, _, rfl, .script hs h.1 hscript h.2⟩
    · rw [guarded, bind_of_ok (publishScript_of_refused h)]
      exact ⟨_, _, rfl, .scriptRefused hs h⟩
  | none =>
    have hnone := truth_getD_of_given? hs
    cases ha : given? fields "appliance_controls" with
    | some v =>
      obtain ⟨hv, htruth⟩ := getD_of_given? ha
      simp only [hnone, hv, htruth, Bool.or_true, if_true, Bool.false_eq_true, if_false]
      have hpublish := publishAppliances_eq (wishesFor v) d
      by_cases hup : d.brokerUp = true
      · rw [guarded, bind_of_ok (hpublish.trans (if_pos hup))]
        exact ⟨_, _, rfl, .appliances hs ha hup⟩
      · rw [guarded, bind_of_ok (hpublish.trans (if_neg hup))]
        exact ⟨_, _, rfl, .appliancesRefused hs ha hup⟩
    | none =>
      have hnone' := truth_getD_of_given? ha
      simp only [hnone, hnone', Bool.or_false, Bool.false_eq_true, if_false]
      exact ⟨_, _, rfl, .nothing hs ha⟩

end Execute

/-! ### Success -/

private theorem payload_ne (s : Settings) (fields : Table Json) (script : Json) (normal : Text)
    (appliances : Json) :
    (scriptMessage s (requestFor fields script) normal).payload ≠ (wishesFor appliances).write := by
  intro h
  have hthird := congrArg (fun t : Text ↦ t[2]?) h
  have hs : ((scriptMessage s (requestFor fields script) normal).payload)[2]? = some 's' := rfl
  have ha : ((wishesFor appliances).write)[2]? = some 'a' := rfl
  rw [hs, ha] at hthird
  cases hthird

private theorem not_isSuccess_problem {status : Nat} (h : status ≠ 200) (message : Text) :
    ¬ (problem status message).IsSuccess := by
  rintro ⟨content, hanswer⟩
  exact h (Answer.response.inj hanswer).1

namespace Executed

variable {d d' : Desk} {fields : Table Json} {answer : Answer}

/-- A command has success exactly if the first thing that it carries can be sent. -/
theorem isSuccess_iff (h : Executed d fields answer d') :
    answer.IsSuccess ↔ Sendable d fields := by
  cases h with
  | script hgiven hadmitted _ hup =>
    refine iff_of_true ⟨_, rfl⟩ ⟨hup, fun u hu ↦ ?_, fun hnone ↦ ?_⟩
    · obtain rfl := Option.some.inj (hgiven.symm.trans hu)
      exact hadmitted
    · cases hgiven.symm.trans hnone
  | scriptRefused hgiven hrefused =>
    refine iff_of_false (not_isSuccess_problem (by decide) _) ?_
    exact fun hsend ↦ hrefused ⟨hsend.script _ hgiven, hsend.up⟩
  | appliances hnone hgiven hup =>
    refine iff_of_true ⟨_, rfl⟩ ⟨hup, fun u hu ↦ ?_, fun _ ↦ by rw [hgiven]; rfl⟩
    cases hnone.symm.trans hu
  | appliancesRefused _ _ hdown =>
    exact iff_of_false (not_isSuccess_problem (by decide) _) fun hsend ↦ hdown hsend.up
  | nothing hnone hwishes =>
    refine iff_of_false (not_isSuccess_problem (by decide) _) fun hsend ↦ ?_
    have hwish := hsend.appliances hnone
    rw [hwishes] at hwish
    cases hwish

private theorem sent_or_eq (h : Executed d fields answer d') :
    (answer.IsSuccess ∧ ∃ message, d'.sent = d.sent ++ [message]) ∨
      (¬ answer.IsSuccess ∧ d' = d) := by
  cases h with
  | script => exact .inl ⟨⟨_, rfl⟩, _, rfl⟩
  | appliances => exact .inl ⟨⟨_, rfl⟩, _, rfl⟩
  | scriptRefused | appliancesRefused | nothing =>
    exact .inr ⟨not_isSuccess_problem (by decide) _, rfl⟩

/-- What goes out with success covers the command exactly if it does not carry both things. -/
theorem covers_iff (h : Executed d fields answer d') (hsuccess : answer.IsSuccess) :
    Covers d.settings fields (d'.sent.drop d.sent.length) ↔
      ¬ ((given? fields "ducky_script").isSome ∧ (given? fields "appliance_controls").isSome) := by
  cases h with
  | @script v script hgiven _ hscript _ =>
    rw [List.drop_left, hgiven]
    constructor
    · rintro hcovers ⟨-, hwishes⟩
      obtain ⟨wishes, hw⟩ := Option.isSome_iff_exists.mp hwishes
      obtain ⟨m, hm, -, hpayload⟩ := hcovers.appliances wishes hw
      rw [List.mem_singleton.mp hm] at hpayload
      exact payload_ne _ _ _ _ _ hpayload
    · intro hone
      refine ⟨fun u hu ↦ ?_, fun u hu ↦ absurd ⟨rfl, by rw [hu]; rfl⟩ hone⟩
      obtain rfl := Option.some.inj (hgiven.symm.trans hu)
      exact ⟨_, List.mem_singleton_self _, rfl, Broker.carries_scriptMessage hscript⟩
  | appliances hnone hgiven _ =>
    rw [List.drop_left]
    refine iff_of_true ⟨fun u hu ↦ ?_, fun u hu ↦ ?_⟩ fun h ↦ ?_
    · cases hnone.symm.trans hu
    · obtain rfl := Option.some.inj (hgiven.symm.trans hu)
      exact ⟨_, List.mem_singleton_self _, rfl, rfl⟩
    · rw [hnone] at h
      exact Bool.false_ne_true h.1
  | scriptRefused | appliancesRefused | nothing =>
    exact absurd hsuccess (not_isSuccess_problem (by decide) _)

end Executed

/-- A success answer covers the whole command exactly if the command does not carry both a script and
wishes for appliances (`execute_command`). Every command that is an object is answered, with success
exactly if the broker takes messages and the first thing that the command carries may be sent. With
success one message goes out, and otherwise the desk is left as it was. -/
theorem success_covers_iff (d : Desk) {body : Text} {fields : Table Json}
    (hread : Json.read body = .ok (.object fields)) :
    ∃ answer d', executeCommand body d = .ok answer d' ∧
      (answer.IsSuccess → (Covers d.settings fields (d'.sent.drop d.sent.length) ↔
        ¬ ((given? fields "ducky_script").isSome ∧
          (given? fields "appliance_controls").isSome))) ∧
      (answer.IsSuccess ↔ Sendable d fields) ∧
      ((answer.IsSuccess ∧ ∃ message, d'.sent = d.sent ++ [message]) ∨
        (¬ answer.IsSuccess ∧ d' = d)) := by
  obtain ⟨answer, d', hrun, h⟩ := exists_executed hread d
  exact ⟨answer, d', hrun, h.covers_iff, h.isSuccess_iff, h.sent_or_eq⟩

/-- The fields of a command, if it is an object. -/
def fieldsOf? (body : Text) : Option (Table Json) :=
  match Json.read body with
  | .ok (.object fields) => some fields
  | _ => none

/-- The text under a key of a command. -/
def textIn? (body key : Text) : Option Text :=
  ((fieldsOf? body).bind (Table.get? · key)).bind Json.text?

/-- A command to press enter under the password can be sent. -/
theorem exists_sendable (body : Text) (hscript : textIn? body "ducky_script" = some "ENTER".toList)
    (hpassword : textIn? body "password" = some "E1s2t3e4r5".toList) :
    ∃ fields, fieldsOf? body = some fields ∧ Json.read body = .ok (.object fields) ∧
      given? fields "ducky_script" = some (.text "ENTER") ∧ Sendable Desk.ready fields := by
  have htext : ∀ {key t}, textIn? body key = some t → ∃ fields, fieldsOf? body = some fields ∧
      Table.get? fields key = some (.text t) := by
    intro key t h
    obtain ⟨v, hv, ht⟩ := Option.bind_eq_some_iff.mp h
    obtain ⟨fields, hfields, hget⟩ := Option.bind_eq_some_iff.mp hv
    cases v with
    | text u => exact ⟨fields, hfields, hget.trans (congrArg (some ∘ Json.text) (Option.some.inj ht))⟩
    | _ => cases ht
  obtain ⟨fields, hfields, hget⟩ := htext hscript
  obtain ⟨fields', hfields', hget'⟩ := htext hpassword
  obtain rfl := Option.some.inj (hfields.symm.trans hfields')
  have hgiven : given? fields "ducky_script" = some (.text "ENTER") :=
    Option.filter_eq_some_iff.mpr ⟨hget, rfl⟩
  refine ⟨fields, hfields, ?_, hgiven, rfl, fun v hv ↦ ?_, fun hnone ↦ ?_⟩
  · unfold fieldsOf? at hfields
    split at hfields
    · next hread => rw [hread, Option.some.inj hfields]
    · cases hfields
  · obtain rfl := Option.some.inj (hgiven.symm.trans hv)
    refine ⟨⟨_, by decide, rfl, ?_⟩, ⟨_, by decide, rfl⟩, .inr fun h ↦ ?_⟩
    · change some ((Table.get? fields "password").getD Json.null) = _
      rw [hget']
      rfl
    · exact Option.some_ne_none (Broker.normalise "ENTER") h.symm
  · cases hgiven.symm.trans hnone

/-- The command to press enter has success, and it is covered. -/
theorem success_covers_iff_enter : ∃ fields, Json.read enterBody = .ok (.object fields) ∧
    ∃ answer d', executeCommand enterBody Desk.ready = .ok answer d' ∧ answer.IsSuccess ∧
      Covers Desk.ready.settings fields (d'.sent.drop Desk.ready.sent.length) := by
  obtain ⟨fields, hfields, hread, -, hsend⟩ :=
    exists_sendable enterBody (by decide +kernel) (by decide +kernel)
  have hwishes : ((fieldsOf? enterBody).bind (given? · "appliance_controls")).isSome = false := by
    decide +kernel
  rw [hfields] at hwishes
  obtain ⟨answer, d', hrun, hcovers, hsuccess, -⟩ := success_covers_iff Desk.ready hread
  have hanswer := hsuccess.mpr hsend
  refine ⟨fields, hread, answer, d', hrun, hanswer, (hcovers hanswer).mpr fun hboth ↦ ?_⟩
  exact Bool.false_ne_true (hwishes.symm.trans hboth.2)

/-- A command to press enter and to switch a light on. -/
def enterAndLightBody : Text :=
  "\x7b\"ducky_script\": \"ENTER\", \"password\": \"E1s2t3e4r5\", ".toList ++
    "\"appliance_controls\": \x7b\"light\": \"on\"\x7d\x7d".toList

/-- The command has success, and yet it is not covered: the light is not switched on. -/
theorem light_not_sent_with_script : ∃ fields, Json.read enterAndLightBody = .ok (.object fields) ∧
    ∃ answer d', executeCommand enterAndLightBody Desk.ready = .ok answer d' ∧ answer.IsSuccess ∧
      ¬ Covers Desk.ready.settings fields (d'.sent.drop Desk.ready.sent.length) := by
  obtain ⟨fields, hfields, hread, hscript, hsend⟩ :=
    exists_sendable enterAndLightBody (by decide +kernel) (by decide +kernel)
  have hwishes :
      ((fieldsOf? enterAndLightBody).bind (given? · "appliance_controls")).isSome = true := by
    decide +kernel
  rw [hfields] at hwishes
  obtain ⟨answer, d', hrun, h⟩ := exists_executed hread Desk.ready
  have hanswer := h.isSuccess_iff.mpr hsend
  refine ⟨fields, hread, answer, d', hrun, hanswer, fun hcovers ↦ ?_⟩
  exact (h.covers_iff hanswer).mp hcovers ⟨by rw [hscript]; rfl, hwishes⟩

end Deskhand.Assistant
