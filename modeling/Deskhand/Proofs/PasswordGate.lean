import Deskhand.Assistant.Serve
import Deskhand.Html.Select
import Deskhand.Proofs.Publishing

/-!
# Scripts are sent under the password

Calls come in any order, each in circumstances of its own. Most of them publish nothing. A script
goes out for a command that carries the laptop's password, and there is one exception: the trial
script, which carries the password itself.
-/

namespace Deskhand.Assistant

open Broker (Message applianceMessage authorised scriptMessage scriptOf?)
open Service

variable {α β : Type}

/-- The desk that work leaves, whichever way it ends. -/
def deskAfter : EStateM.Result Fault Desk α → Desk
  | .ok _ d => d
  | .error _ d => d

/-- From one desk to another only messages in `P` are published, and the settings stay the same. -/
structure Desk.Adds (P : Message → Prop) (d d' : Desk) : Prop where
  settings : d'.settings = d.settings
  sent : ∃ new, d'.sent = d.sent ++ new ∧ ∀ message ∈ new, P message

namespace Desk.Adds

variable {P : Message → Prop} {d d' d'' : Desk}

/-- Nothing is published. -/
theorem of_eq (hsettings : d'.settings = d.settings) (hsent : d'.sent = d.sent) : d.Adds P d' := by
  refine ⟨hsettings, [], ?_, fun _ h ↦ nomatch h⟩
  rw [hsent, List.append_nil]

/-- One message is published. -/
theorem of_append {message : Message} (hsettings : d'.settings = d.settings)
    (hsent : d'.sent = d.sent ++ [message]) (h : P message) : d.Adds P d' := by
  refine ⟨hsettings, [message], hsent, ?_⟩
  intro m hm
  rw [List.mem_singleton.mp hm]
  exact h

/-- What is published on the way is published in the end. -/
theorem trans (h : d.Adds P d') (h' : d'.Adds P d'') : d.Adds P d'' := by
  obtain ⟨hs, new, hnew, hP⟩ := h
  obtain ⟨hs', new', hnew', hP'⟩ := h'
  refine ⟨hs'.trans hs, new ++ new', ?_, ?_⟩
  · rw [hnew', hnew, List.append_assoc]
  · intro m hm
    rcases List.mem_append.mp hm with hm | hm
    · exact hP m hm
    · exact hP' m hm

end Desk.Adds

/-- Whichever way the work ends, it only publishes messages that are in `P` under the settings. -/
structure Publishes (P : Settings → Message → Prop) (work : Service α) : Prop where
  adds : ∀ d : Desk, d.Adds (P d.settings) (deskAfter (work d))

namespace Publishes

variable {P Q : Settings → Message → Prop}

/-- More may be allowed. -/
theorem mono {work : Service α} (h : Publishes P work) (hPQ : ∀ s m, P s m → Q s m) :
    Publishes Q work := by
  refine ⟨fun d ↦ ?_⟩
  obtain ⟨hs, new, hnew, hP⟩ := h.adds d
  exact ⟨hs, new, hnew, fun m hm ↦ hPQ _ m (hP m hm)⟩

/-- A value publishes nothing. -/
theorem pure (a : α) : Publishes P (pure a : Service α) := ⟨fun _ ↦ .of_eq rfl rfl⟩

/-- Looking at the desk publishes nothing. -/
theorem get : Publishes P (get : Service Desk) := ⟨fun _ ↦ .of_eq rfl rfl⟩

/-- A change of other things publishes nothing. -/
theorem modify {f : Desk → Desk} (hsettings : ∀ d, (f d).settings = d.settings)
    (hsent : ∀ d, (f d).sent = d.sent) : Publishes P (modify f : Service Unit) :=
  ⟨fun d ↦ .of_eq (hsettings d) (hsent d)⟩

/-- Work in sequence publishes what its parts do. -/
theorem bind {work : Service α} {next : α → Service β} (hw : Publishes P work)
    (hn : ∀ a, Publishes P (next a)) : Publishes P (work >>= next) := by
  refine ⟨fun d ↦ ?_⟩
  have hd := hw.adds d
  cases hr : work d with
  | error f d' =>
    rw [bind_of_error hr]
    rw [hr] at hd
    exact hd
  | ok a d' =>
    rw [bind_of_ok hr]
    rw [hr] at hd
    have hd' := (hn a).adds d'
    have hsettings : d'.settings = d.settings := hd.settings
    rw [hsettings] at hd'
    exact hd.trans hd'

/-- Going through a list publishes what its items do. -/
theorem forM {act : β → Service PUnit} (h : ∀ b, Publishes P (act b)) (items : List β) :
    Publishes P (items.forM act) := by
  induction items with
  | nil => exact pure _
  | cons b rest ih => exact bind (h b) fun _ ↦ ih

/-- A result publishes nothing. -/
theorem ofExcept {ε : Type} (f : ε → Fault) (result : Except ε α) :
    Publishes P (ofExcept f result) := by
  cases result with
  | ok a => exact pure a
  | error e => exact ⟨fun _ ↦ .of_eq rfl rfl⟩

private theorem bind_ofExcept {ε : Type} {f : ε → Fault} {result : Except ε α}
    {next : α → Service β} (h : ∀ a, result = .ok a → Publishes P (next a)) :
    Publishes P (Service.ofExcept f result >>= next) := by
  cases result with
  | ok a => exact h a rfl
  | error e => exact ⟨fun _ ↦ .of_eq rfl rfl⟩

/-- Faults that become an answer publish nothing more. -/
theorem guarded {onFault : Text → Answer} {work : Service Answer} (h : Publishes P work) :
    Publishes P (guarded onFault work) := by
  refine ⟨fun d ↦ ?_⟩
  have hd := h.adds d
  unfold Assistant.guarded
  cases hr : work d with
  | ok a d' =>
    rw [hr] at hd
    exact hd
  | error f d' =>
    rw [hr] at hd
    exact hd

end Publishes

/-! ### Work that publishes nothing -/

section Quiet

variable {P : Settings → Message → Prop}

private theorem publishes_ask (request context : Text) : Publishes P (ask request context) :=
  .bind .get fun _ ↦ .bind ⟨fun _ ↦ .of_eq rfl rfl⟩ fun _ ↦ .pure _

private theorem publishes_search [Soup] (query : Json) : Publishes P (search query) := by
  refine ⟨fun d ↦ ?_⟩
  have hresult := (Publishes.ofExcept (P := P) Fault.search (Search.run d.web d.clock query).1).adds
    { d with requested := d.requested ++ (Search.run d.web d.clock query).2 }
  exact ⟨hresult.settings, hresult.sent⟩

private theorem publishes_remember (user request action : Text) (response output : Json) :
    Publishes P (remember user request action response output) := by
  refine .bind (.modify (fun _ ↦ rfl) fun _ ↦ rfl) fun _ ↦ ?_
  exact .bind (.ofExcept _ _) fun _ ↦ .modify (fun _ ↦ rfl) fun _ ↦ rfl

private theorem publishes_context (user : Text) : Publishes P (context user) :=
  .bind .get fun _ ↦ .ofExcept _ _

private theorem publishes_answerRequest [Soup] (request context : Text) :
    Publishes P (answerRequest request context) := by
  refine .bind (publishes_ask request context) fun answer ↦ .bind (.ofExcept _ _) fun wanted ↦ ?_
  cases wanted with
  | none => exact .pure answer
  | some query => exact .bind (publishes_search query) fun _ ↦ publishes_ask _ context

/-- Answering a spoken request publishes nothing. -/
theorem publishes_listen [Soup] (user : Text) (u : Upload)
    (transcript : Except Text (Option Text)) :
    Publishes P (listen user u transcript) := by
  have hheard : Publishes P (transcribe u transcript) :=
    .bind (.ofExcept _ _) fun _ ↦ .bind (.modify (fun _ ↦ rfl) fun _ ↦ rfl) fun _ ↦
      .bind (.ofExcept _ _) fun _ ↦ .pure _
  refine .bind (publishes_context user) fun context ↦ .bind hheard fun request ↦ ?_
  split
  · exact .pure _
  · refine .bind (.bind (publishes_answerRequest request context) fun _ ↦ .ofExcept _ _) fun _ ↦ ?_
    refine .bind (.ofExcept _ _) fun _ ↦ .bind (.ofExcept _ _) fun _ ↦ ?_
    exact .bind (publishes_remember _ _ _ _ _) fun _ ↦ .ofExcept _ _

private theorem publishes_demonstrate (user : Text) : Publishes P (demonstrate user) := by
  refine .guarded (.bind (.modify (fun _ ↦ rfl) fun _ ↦ rfl) fun _ ↦ ?_)
  refine .bind (.forM (fun _ ↦ publishes_remember _ _ _ _ _) _) fun _ ↦ ?_
  exact .bind (publishes_context user) fun _ ↦ .bind .get fun _ ↦ .pure _

private theorem publishes_storePicture (user : Text) (data : Except Text (List UInt8)) :
    Publishes P (storePicture user data) := by
  unfold storePicture
  split
  · exact .bind (.modify (fun _ ↦ rfl) fun _ ↦ rfl) fun _ ↦ .pure _
  · exact .pure _
  · exact .pure _

end Quiet

/-! ### Work that publishes -/

/-- The message is the one for a request that carries the laptop's password. -/
structure IsScript (request : Json) (s : Settings) (message : Message) : Prop where
  password : ∃ p, s.laptopPassword = some p ∧ request.field? "password" = some (.text p)
  message_eq : ∃ script, scriptOf? request = some script ∧ message = scriptMessage s request script

/-- A script is published under the password. -/
theorem publishes_publishScript (request : Json) :
    Publishes (IsScript request) (publishScript request) := by
  refine ⟨fun d ↦ ?_⟩
  rw [publishScript_eq]
  cases hacc : Broker.accept? d.settings d.lastCommand request with
  | none => exact .of_eq rfl rfl
  | some found =>
    obtain ⟨script, message⟩ := found
    obtain ⟨ha, hs, hm⟩ := Broker.accept?_eq_some_iff.mp hacc
    obtain ⟨p, -, hset, hfield⟩ := ha.password
    dsimp only
    split
    · exact .of_append rfl rfl ⟨⟨p, hset, hfield⟩, script, hs, hm⟩
    · exact .of_eq rfl rfl

private theorem publishes_publishAppliances (request : Json) :
    Publishes (fun s m ↦ m = applianceMessage s request) (publishAppliances request) := by
  refine ⟨fun d ↦ ?_⟩
  rw [publishAppliances, bind_of_ok (run_get d)]
  split
  · exact .of_append rfl rfl rfl
  · exact .of_eq rfl rfl

/-- The message with the trial script. -/
def trialMessage (s : Settings) : Message where
  topic := s.scripts.topic
  payload := sampleScript.write
  host := s.brokerHost
  port := s.brokerPort
  login := Broker.scriptLogin s.scripts

private theorem scriptOf?_sampleScript :
    scriptOf? sampleScript = some "GUI r\nDELAY 300\nSTRING notepad\nENTER".toList := by
  decide

private theorem IsScript.eq_trialMessage {s : Settings} {message : Message}
    (h : IsScript sampleScript s message) : message = trialMessage s := by
  obtain ⟨script, hs, rfl⟩ := h.message_eq
  obtain rfl := Option.some.inj (scriptOf?_sampleScript.symm.trans hs)
  rfl

/-- What a call may publish, and why. -/
inductive MayPublish (s : Settings) : Call → Message → Prop where
  /-- A script, for a command that carries the password. -/
  | script {body : Text} {data : Json} {p : Text} {message : Message}
    (read : Json.read body = .ok data) (password : s.laptopPassword = some p)
    (carried : data.field? "password" = some (.text p)) :
    MayPublish s (.executeCommand body) message
  /-- A message for appliances, for a command that has them. -/
  | appliances {body : Text} (request : Json) :
    MayPublish s (.executeCommand body) (applianceMessage s request)
  /-- The trial script. -/
  | trial : MayPublish s .tryScript (trialMessage s)

/-- The password in the message that a command leads to is the one that the command carries. -/
theorem field?_of_scriptRequest {script data request : Json} {p : Text}
    (h : scriptRequest script data = .ok request) (hp : request.field? "password" = some (.text p)) :
    data.field? "password" = some (.text p) := by
  cases data with
  | object fields =>
    obtain rfl := Except.ok.inj h
    have hpassword : ((Table.get? fields "password".toList).getD Json.null) = .text p :=
      Option.some.inj hp
    change Table.get? fields "password".toList = some (.text p)
    cases hf : Table.get? fields "password".toList with
    | none =>
      rw [hf] at hpassword
      cases hpassword
    | some v =>
      rw [hf] at hpassword
      exact congrArg some hpassword
  | _ => cases h

/-- A command publishes a script if it carries the password, or something for appliances. -/
theorem publishes_executeCommand (body : Text) :
    Publishes (fun s ↦ MayPublish s (.executeCommand body)) (executeCommand body) := by
  refine .guarded (.bind_ofExcept fun data hread ↦ ?_)
  refine .bind (.ofExcept _ _) fun script ↦ .bind (.ofExcept _ _) fun appliances ↦ ?_
  have hanswer : ∀ sent : Bool, Publishes (fun s ↦ MayPublish s (.executeCommand body))
      (if sent then
        pure (.response 200 (notice [("status", "success"), ("message", "Command sent via MQTT")]))
      else pure (problem 500 "Failed to publish command to MQTT")) := by
    intro sent
    cases sent <;> exact .pure _
  split
  · split
    · refine .bind_ofExcept fun request hrequest ↦ .bind ?_ hanswer
      refine (publishes_publishScript request).mono ?_
      rintro s m ⟨⟨p, hset, hfield⟩, -⟩
      exact .script hread hset (field?_of_scriptRequest hrequest hfield)
    · refine .bind ((publishes_publishAppliances _).mono ?_) hanswer
      rintro s m rfl
      exact .appliances _
  · exact .pure _

/-- Each call publishes what it may. -/
theorem publishes_serve [Soup] (call : Call) : Publishes (fun s ↦ MayPublish s call)
    (serve call) := by
  cases call with
  | processAudio user upload transcript outcomes =>
    refine .bind (.modify (fun _ ↦ rfl) fun _ ↦ rfl) fun _ ↦ .guarded ?_
    exact .bind (publishes_listen user upload transcript) fun _ ↦ .pure _
  | resetConversation user => exact .bind (.modify (fun _ ↦ rfl) fun _ ↦ rfl) fun _ ↦ .pure _
  | trySearch query =>
    rw [serve, trySearch]
    exact .guarded (.bind (publishes_search query) fun _ ↦ .pure _)
  | executeCommand body => exact publishes_executeCommand body
  | resetLastCommand => exact .bind (.modify (fun _ ↦ rfl) fun _ ↦ rfl) fun _ ↦ .pure _
  | conversationHistory user =>
    refine .guarded (.bind .get fun _ ↦ .bind (publishes_context user) fun _ ↦ ?_)
    exact .bind (.ofExcept _ _) fun _ ↦ .pure _
  | tryScript =>
    refine .bind ((publishes_publishScript sampleScript).mono ?_) fun _ ↦ .pure _
    intro s m hm
    rw [hm.eq_trialMessage]
    exact .trial
  | demonstrate user => exact publishes_demonstrate user
  | storePicture user data => exact publishes_storePicture user data
  | welcome => exact .pure _

/-! ### Runs -/

/-- A call, and the circumstances in which it is answered. -/
structure Occasion where
  call : Call
  up : Bool
  web : Search.Web
  clock : Clock
  otherwise : Model.Outcome

namespace Occasion

/-- The desk as the call finds it. -/
def find (o : Occasion) (d : Desk) : Desk :=
  { d with brokerUp := o.up, web := o.web, clock := o.clock, otherwise := o.otherwise }

/-- The desk after the call. -/
def leave [Soup] (o : Occasion) (d : Desk) : Desk := deskAfter (serve o.call (o.find d))

/-- The messages published during the call. -/
def messages [Soup] (o : Occasion) (d : Desk) : List Message := (o.leave d).sent.drop d.sent.length

/-- A call changes no settings, and what is published during it may be published. -/
theorem step [Soup] (o : Occasion) (d : Desk) : (o.leave d).settings = d.settings ∧
    ∀ m ∈ o.messages d, MayPublish d.settings o.call m := by
  obtain ⟨hsettings, new, hnew, hmay⟩ := (publishes_serve o.call).adds (o.find d)
  refine ⟨hsettings, ?_⟩
  have hmessages : o.messages d = new := by
    have hsent : (o.leave d).sent = d.sent ++ new := hnew
    rw [messages, hsent]
    exact List.drop_left
  rw [hmessages]
  exact hmay

end Occasion

/-- Answers calls one after the other, and tells for each one what was published during it. -/
def Desk.serveAll [Soup] (d : Desk) : List Occasion → List (Occasion × List Message)
  | [] => []
  | o :: rest => (o, o.messages d) :: (o.leave d).serveAll rest

/-- Each call of a run was answered at a desk with the settings of the first one. -/
theorem Desk.exists_of_mem_serveAll [Soup] {d : Desk} {occasions : List Occasion} {o : Occasion}
    {messages : List Message} (h : (o, messages) ∈ d.serveAll occasions) :
    ∃ d' : Desk, d'.settings = d.settings ∧ messages = o.messages d' := by
  induction occasions generalizing d with
  | nil => cases h
  | cons first rest ih =>
    rcases List.mem_cons.mp h with h | h
    · obtain ⟨rfl, rfl⟩ := Prod.mk.inj h
      exact ⟨d, rfl, rfl⟩
    · obtain ⟨d', hsettings, hmessages⟩ := ih h
      exact ⟨d', hsettings.trans (first.step d).1, hmessages⟩

private theorem admitted_sampleScript {s : Settings}
    (hp : s.laptopPassword = some "E1s2t3e4r5".toList) (last : Option Text) :
    Broker.Admitted s last sampleScript :=
  ⟨⟨_, by decide, hp, rfl⟩, ⟨_, by decide, rfl⟩, .inl rfl⟩

/-- Under its password the trial script goes out whenever the broker takes messages. -/
theorem Occasion.messages_tryScript [Soup] {o : Occasion} {d : Desk} (ho : o.call = .tryScript)
    (hp : d.settings.laptopPassword = some "E1s2t3e4r5".toList) :
    o.messages d = if o.up then [trialMessage d.settings] else [] := by
  have ha : Broker.Admitted (o.find d).settings (o.find d).lastCommand sampleScript :=
    admitted_sampleScript hp d.lastCommand
  rw [messages, leave, ho, serve, tryScript]
  by_cases hup : o.up = true
  · rw [if_pos hup, bind_of_ok (publishScript_of_admitted ha scriptOf?_sampleScript hup)]
    exact List.drop_left
  · rw [if_neg hup, bind_of_ok (publishScript_of_refused fun h ↦ hup h.2)]
    exact List.drop_length

/-- Scripts are sent under the password (`publish_ducky_script_to_mqtt`). With the trial script's
password set for the laptop, whatever is published on the topic for scripts, in any sequence of calls
and in whatever circumstances, is published during a command whose own text carries the password, or
is the trial script during a call to try it, or is for the appliances of a command, if they have the
same topic. The trial script does go out at each such call, if the broker takes messages. -/
theorem Desk.scripts_sent_under_password [Soup] (d : Desk)
    (hp : d.settings.laptopPassword = some "E1s2t3e4r5".toList) (occasions : List Occasion)
    (o : Occasion) (messages : List Message) (ho : (o, messages) ∈ d.serveAll occasions) :
    (∀ m ∈ messages, m.topic = d.settings.scripts.topic →
      (∃ body data, o.call = .executeCommand body ∧ Json.read body = .ok data ∧
        data.field? "password" = some (.text "E1s2t3e4r5")) ∨
      (o.call = .tryScript ∧ m = trialMessage d.settings) ∨
      (d.settings.appliances.topic = d.settings.scripts.topic ∧
        ∃ body request, o.call = .executeCommand body ∧ m = applianceMessage d.settings request)) ∧
    (o.call = .tryScript → messages = if o.up then [trialMessage d.settings] else []) := by
  obtain ⟨d', hsettings, rfl⟩ := d.exists_of_mem_serveAll ho
  rw [← hsettings] at hp ⊢
  refine ⟨?_, fun hcall ↦ Occasion.messages_tryScript hcall hp⟩
  intro m hm htopic
  have hmay := (o.step d').2 m hm
  generalize hcall : o.call = call at hmay
  cases hmay with
  | script hread hpassword hcarried =>
    obtain rfl := Option.some.inj (hp.symm.trans hpassword)
    exact .inl ⟨_, _, rfl, hread, hcarried⟩
  | appliances request => exact .inr (.inr ⟨htopic, _, request, rfl, rfl⟩)
  | trial => exact .inr (.inl ⟨rfl, rfl⟩)

/-- An occasion on which nothing but the broker can be reached. -/
def Occasion.plain (call : Call) : Occasion where
  call := call
  up := true
  web := ⟨none, .failed, []⟩
  clock := ⟨2025, 1, 15, 10, 30⟩
  otherwise := .noChoice

/-- A command to press enter, as a call carries it. -/
def enterBody : Text := "\x7b\"ducky_script\": \"ENTER\", \"password\": \"E1s2t3e4r5\"\x7d".toList

/-- After the trial script, a command to press enter is published and carries the password. -/
theorem Desk.scripts_sent_under_password_enter :
    ∃ m, (.plain (.executeCommand enterBody), [m]) ∈
        ready.serveAll [.plain .tryScript, .plain (.executeCommand enterBody)] ∧
      m.topic = ready.settings.scripts.topic ∧
      ∃ data, Json.read enterBody = .ok data ∧
        data.field? "password" = some (.text "E1s2t3e4r5") := by
  obtain ⟨m, hm, htopic⟩ : ∃ m, (Occasion.plain (.executeCommand enterBody)).messages
      ((Occasion.plain .tryScript).leave ready) = [m] ∧ m.topic = ready.settings.scripts.topic :=
    ⟨scriptMessage ready.settings (.object [("script", .text "ENTER"),
      ("password", .text "E1s2t3e4r5"), ("repeat", .bool false)]) "ENTER", by decide +kernel, rfl⟩
  have hmem : (Occasion.plain (.executeCommand enterBody), [m]) ∈
      ready.serveAll [.plain .tryScript, .plain (.executeCommand enterBody)] := by
    rw [← hm]
    exact .tail _ (.head _)
  refine ⟨m, hmem, htopic, ?_⟩
  rcases (ready.scripts_sent_under_password rfl _ _ _ hmem).1 m (.head _) htopic with
    ⟨body, data, hcall, hread, hfield⟩ | ⟨hcall, -⟩ | ⟨hsame, -⟩
  · obtain rfl := Call.executeCommand.inj hcall
    exact ⟨data, hread, hfield⟩
  · cases hcall
  · exact absurd hsame (by decide)

/-- The trial script is sent although no command is given. -/
theorem Desk.trial_sent_without_command :
    ready.settings.laptopPassword = some "E1s2t3e4r5".toList ∧
    ¬ ∀ o messages, (o, messages) ∈ ready.serveAll [.plain .tryScript] →
      ∀ m ∈ messages, m.topic = ready.settings.scripts.topic →
        ∃ body data, o.call = .executeCommand body ∧ Json.read body = .ok data ∧
          data.field? "password" = some (.text "E1s2t3e4r5") := by
  refine ⟨rfl, fun h ↦ ?_⟩
  have hsent : (Occasion.plain .tryScript).messages ready = [trialMessage ready.settings] :=
    Occasion.messages_tryScript rfl rfl
  obtain ⟨body, data, hcall, -⟩ := h (.plain .tryScript) [trialMessage ready.settings]
    (by rw [← hsent]; exact .head _) (trialMessage ready.settings) (.head _) rfl
  cases hcall

end Deskhand.Assistant
