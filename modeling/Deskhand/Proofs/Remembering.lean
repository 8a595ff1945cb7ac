import Deskhand.Proofs.JsonReading
import Deskhand.Proofs.PasswordGate
import Deskhand.Proofs.Recall

/-!
# What calls do to the memory

A spoken request that is answered leaves one exchange in the conversation of its user, made of the
request and the answer alone. A request that fails leaves every conversation as it was, wherever it
fails. Only a user's wish to forget and a demonstration change a conversation besides.
-/

namespace Deskhand.Assistant

open Service
open Memory (SameExchanges recent)

variable {α β : Type}

private theorem run_modify (f : Desk → Desk) (d : Desk) : (modify f : Service Unit) d = .ok ()
    (f d) := rfl

/-! ### Work that does not touch the memory -/

/-- Whichever way the work ends, the memory is as it was. -/
structure KeepsMemory (work : Service α) : Prop where
  memory_eq : ∀ d : Desk, (deskAfter (work d)).memory = d.memory

namespace KeepsMemory

/-- A value does not touch the memory. -/
theorem pure (a : α) : KeepsMemory (pure a : Service α) := ⟨fun _ ↦ rfl⟩

/-- Nor does looking at the desk. -/
theorem get : KeepsMemory (get : Service Desk) := ⟨fun _ ↦ rfl⟩

/-- Nor does a change of other things. -/
theorem modify {f : Desk → Desk} (h : ∀ d, (f d).memory = d.memory) :
    KeepsMemory (modify f : Service Unit) := ⟨h⟩

/-- Nor does a result. -/
theorem ofExcept {ε : Type} (f : ε → Fault) (result : Except ε α) :
    KeepsMemory (ofExcept f result) := by
  cases result with
  | ok a => exact pure a
  | error e => exact ⟨fun _ ↦ rfl⟩

/-- Nor does work in sequence, if its parts do not. -/
theorem bind {work : Service α} {next : α → Service β} (hw : KeepsMemory work)
    (hn : ∀ a, KeepsMemory (next a)) : KeepsMemory (work >>= next) := by
  refine ⟨fun d ↦ ?_⟩
  have hd := hw.memory_eq d
  cases hr : work d with
  | error f d' =>
    rw [bind_of_error hr]
    rw [hr] at hd
    exact hd
  | ok a d' =>
    rw [bind_of_ok hr]
    rw [hr] at hd
    exact ((hn a).memory_eq d').trans hd

/-- Nor do faults that become an answer. -/
theorem guarded {onFault : Text → Answer} {work : Service Answer} (h : KeepsMemory work) :
    KeepsMemory (guarded onFault work) := by
  refine ⟨fun d ↦ ?_⟩
  have hd := h.memory_eq d
  unfold Assistant.guarded
  cases hr : work d with
  | ok a d' =>
    rw [hr] at hd
    exact hd
  | error f d' =>
    rw [hr] at hd
    exact hd

private theorem memory_of_ok {work : Service α} (h : KeepsMemory work) {d d' : Desk} {a : α}
    (hr : work d = .ok a d') : d'.memory = d.memory := by
  have hd := h.memory_eq d
  rwa [hr] at hd

private theorem memory_of_error {work : Service α} (h : KeepsMemory work) {d d' : Desk} {f : Fault}
    (hr : work d = .error f d') : d'.memory = d.memory := by
  have hd := h.memory_eq d
  rwa [hr] at hd

end KeepsMemory

private theorem keepsMemory_context (user : Text) : KeepsMemory (context user) :=
  .bind .get fun _ ↦ .ofExcept _ _

private theorem keepsMemory_transcribe (u : Upload) (transcript : Except Text (Option Text)) :
    KeepsMemory (transcribe u transcript) :=
  .bind (.ofExcept _ _) fun _ ↦ .bind (.modify fun _ ↦ rfl) fun _ ↦
    .bind (.ofExcept _ _) fun _ ↦ .pure _

private theorem keepsMemory_ask (request context : Text) : KeepsMemory (ask request context) :=
  .bind .get fun _ ↦ .bind ⟨fun _ ↦ rfl⟩ fun _ ↦ .pure _

private theorem keepsMemory_search [Soup] (query : Json) : KeepsMemory (search query) := by
  refine ⟨fun d ↦ ?_⟩
  exact (KeepsMemory.ofExcept Fault.search (Search.run d.web d.clock query).1).memory_eq
    { d with requested := d.requested ++ (Search.run d.web d.clock query).2 }

private theorem keepsMemory_respond [Soup] (request context : Text) :
    KeepsMemory (respond request context) := by
  refine .bind ?_ fun _ ↦ .ofExcept _ _
  refine .bind (keepsMemory_ask request context) fun answer ↦ .bind (.ofExcept _ _) fun wanted ↦ ?_
  cases wanted with
  | none => exact .pure answer
  | some query => exact .bind (keepsMemory_search query) fun _ ↦ keepsMemory_ask _ context

private theorem keepsMemory_publishScript (request : Json) :
    KeepsMemory (publishScript request) := by
  refine ⟨fun d ↦ ?_⟩
  rw [publishScript_eq]
  split
  · rfl
  · split <;> rfl

private theorem keepsMemory_publishAppliances (request : Json) :
    KeepsMemory (publishAppliances request) := by
  refine ⟨fun d ↦ ?_⟩
  rw [publishAppliances, bind_of_ok (run_get d)]
  split <;> rfl

/-- A command does not touch the memory. -/
theorem keepsMemory_executeCommand (body : Text) : KeepsMemory (executeCommand body) := by
  refine .guarded (.bind (.ofExcept _ _) fun data ↦ ?_)
  refine .bind (.ofExcept _ _) fun script ↦ .bind (.ofExcept _ _) fun appliances ↦ ?_
  have hanswer : ∀ sent : Bool, KeepsMemory
      (if sent then
        pure (.response 200 (notice [("status", "success"), ("message", "Command sent via MQTT")]))
      else pure (problem 500 "Failed to publish command to MQTT")) := by
    intro sent
    cases sent <;> exact .pure _
  split
  · split
    · exact .bind (.ofExcept _ _) fun request ↦ .bind (keepsMemory_publishScript request) hanswer
    · exact .bind (keepsMemory_publishAppliances _) hanswer
  · exact .pure _

private theorem keepsMemory_storePicture (user : Text) (data : Except Text (List UInt8)) :
    KeepsMemory (storePicture user data) := by
  unfold storePicture
  split
  · exact .bind (.modify fun _ ↦ rfl) fun _ ↦ .pure _
  · exact .pure _
  · exact .pure _

private theorem keepsMemory_conversationHistory (user : Text) :
    KeepsMemory (conversationHistory user) := by
  refine .guarded (.bind .get fun _ ↦ .bind (keepsMemory_context user) fun _ ↦ ?_)
  exact .bind (.ofExcept _ _) fun _ ↦ .pure _

/-! ### Spoken requests -/

/-- What was said in a recording. Nothing, if it could not be told. -/
def transcription : Except Text (Option Text) → Text
  | .ok heard => heard.getD []
  | .error _ => []

/-- The exchange that is remembered of a request and its answer. -/
def exchangeOf (request : Text) (answer : Json) : Except Json.Misuse Exchange := do
  let action ← actionOf answer
  let response ← answer.get? "output_natural_response"
  Exchange.make request action (response.getD (.text [])) answer

/-- Remembers a request and its answer, and gives the answer. -/
def keep (user request : Text) (answer : Json) : Service Json := do
  let action ← ofUse (actionOf answer)
  let response := (← ofUse (answer.get? "output_natural_response")).getD (.text [])
  remember user request action response answer
  ofUse answer.finite

private theorem listen_eq [Soup] (user : Text) (u : Upload)
    (transcript : Except Text (Option Text)) :
    listen user u transcript = (do
      let context ← context user
      let request ← transcribe u transcript
      if request.isEmpty then pure nothingHeard
      else respond request context >>= keep user request) := rfl

/-- What is transcribed is the transcription. -/
theorem eq_transcription {u : Upload} {transcript : Except Text (Option Text)} {d d' : Desk}
    {request : Text} (h : transcribe u transcript d = .ok request d') :
    request = transcription transcript := by
  obtain ⟨filename, data⟩ := u
  cases data with
  | error message => cases h
  | ok data =>
    cases transcript with
    | error message => cases h
    | ok heard =>
      cases h
      rfl

section Requests

variable {user request : Text} {answer : Json} {d : Desk}

private theorem context_of_ok {t : Text} (h : d.memory.context user = .ok t) :
    context user d = .ok t d := by
  rw [context, bind_of_ok (run_get d), h]
  rfl

/-- A context that cannot be told is a fault. -/
theorem context_of_error {misuse : Json.Misuse} (h : d.memory.context user = .error misuse) :
    context user d = .error (.misuse misuse) d := by
  rw [context, bind_of_ok (run_get d), h]
  rfl

/-- The exchange of a request and its answer is remembered, before the answer is found fit to send.
It is there also if the answer is not. -/
theorem keep_of_ok {e : Exchange} (h : exchangeOf request answer = .ok e) :
    keep user request answer d = ofUse answer.finite
      { d with memory := (d.memory.openFor user).add user e } := by
  obtain ⟨action, haction, h⟩ := exists_of_bind_eq_ok h
  obtain ⟨response, hresponse, hmake⟩ := exists_of_bind_eq_ok h
  rw [keep, haction, hresponse]
  change (remember user request action (response.getD (.text [])) answer >>= fun _ ↦ _) d = _
  rw [remember, hmake]
  rfl

/-- If there is no exchange of a request and its answer, all conversations stay as they are. -/
theorem keep_of_error (user : Text) (d : Desk) {misuse : Json.Misuse}
    (h : exchangeOf request answer = .error misuse) :
    ∃ d', keep user request answer d = .error (.misuse misuse) d' ∧
      SameExchanges d.memory d'.memory := by
  unfold exchangeOf at h
  unfold keep
  cases haction : actionOf answer with
  | error m =>
    rw [haction] at h
    cases h
    exact ⟨d, rfl, fun _ ↦ rfl⟩
  | ok action =>
    rw [haction] at h
    cases hresponse : answer.get? "output_natural_response" with
    | error m =>
      rw [hresponse] at h
      cases h
      exact ⟨d, rfl, fun _ ↦ rfl⟩
    | ok response =>
      rw [hresponse] at h
      have hmake : Exchange.make request action (response.getD (.text [])) answer =
        .error misuse := h
      refine ⟨{ d with memory := d.memory.openFor user }, ?_,
        Memory.sameExchanges_openFor d.memory user⟩
      change (remember user request action (response.getD (.text [])) answer >>= fun _ ↦ _) d = _
      rw [remember, hmake]
      rfl

/-- How answering a spoken request ends, and what it does to the conversations. -/
inductive Listened (user : Text) (transcript : Except Text (Option Text)) (m : Memory) :
    EStateM.Result Fault Desk Json → Prop where
  /-- Something goes wrong before an exchange is remembered. -/
  | failed {f : Fault} {d' : Desk} (same : SameExchanges m d'.memory) :
    Listened user transcript m (.error f d')
  /-- Nothing was said. -/
  | silent {context : Text} {d' : Desk} (told : m.context user = .ok context)
    (said : transcription transcript = []) (same : SameExchanges m d'.memory) :
    Listened user transcript m (.ok nothingHeard d')
  /-- The request is answered and remembered. -/
  | kept {context : Text} {answer : Json} {e : Exchange} {d' : Desk}
    (told : m.context user = .ok context) (said : transcription transcript ≠ [])
    (entry : exchangeOf (transcription transcript) answer = .ok e)
    (added : SameExchanges (m.add user e) d'.memory) :
    Listened user transcript m (.ok answer d')
  /-- The request is remembered, but its answer has a number that cannot be sent. -/
  | unsent {context : Text} {answer : Json} {e : Exchange} {d' : Desk}
    (told : m.context user = .ok context) (said : transcription transcript ≠ [])
    (entry : exchangeOf (transcription transcript) answer = .ok e)
    (added : SameExchanges (m.add user e) d'.memory) :
    Listened user transcript m (.error (.misuse .notFinite) d')

/-- An answer is kept with its exchange, or no exchange is. -/
theorem listened_keep {transcript : Except Text (Option Text)} {m : Memory} {context : Text}
    (told : m.context user = .ok context) (said : transcription transcript ≠ [])
    (hmemory : d.memory = m) (answer : Json) :
    Listened user transcript m (keep user (transcription transcript) answer d) := by
  subst hmemory
  cases hentry : exchangeOf (transcription transcript) answer with
  | error misuse =>
    obtain ⟨d', hkeep, hsame⟩ := keep_of_error user d hentry
    rw [hkeep]
    exact .failed hsame
  | ok e =>
    have hadded : SameExchanges (d.memory.add user e) ((d.memory.openFor user).add user e) :=
      (Memory.sameExchanges_openFor d.memory user).add user e
    rw [keep_of_ok hentry, Json.finite]
    split
    · exact .kept told said hentry hadded
    · exact .unsent told said hentry hadded

/-- Every spoken request is answered in one of these ways. -/
theorem listened [Soup] (user : Text) (u : Upload) (transcript : Except Text (Option Text))
    (d : Desk) :
    Listened user transcript d.memory (listen user u transcript d) := by
  rw [listen_eq]
  cases htold : d.memory.context user with
  | error misuse =>
    rw [bind_of_error (context_of_error htold)]
    exact .failed fun _ ↦ rfl
  | ok context =>
    rw [bind_of_ok (context_of_ok htold)]
    cases hrequest : transcribe u transcript d with
    | error f d' =>
      have hd' := (keepsMemory_transcribe u transcript).memory_of_error hrequest
      rw [bind_of_error hrequest]
      exact .failed fun _ ↦ by rw [hd']
    | ok request d₁ =>
      have hd₁ := (keepsMemory_transcribe u transcript).memory_of_ok hrequest
      rw [bind_of_ok hrequest]
      obtain rfl := eq_transcription hrequest
      split
      · next hempty => exact .silent htold (List.isEmpty_iff.mp hempty) fun _ ↦ by rw [hd₁]
      · next hsaid =>
        rw [List.isEmpty_iff] at hsaid
        cases hanswer : respond (transcription transcript) context d₁ with
        | error f d' =>
          have hd' := (keepsMemory_respond _ _).memory_of_error hanswer
          rw [bind_of_error hanswer]
          exact .failed fun _ ↦ by rw [hd', hd₁]
        | ok answer d₂ =>
          have hd₂ := (keepsMemory_respond _ _).memory_of_ok hanswer
          rw [bind_of_ok hanswer]
          exact listened_keep htold hsaid (hd₂.trans hd₁) answer

private theorem guarded_of_ok {onFault : Text → Answer} {work : Service Answer} {a : Answer}
    {d' : Desk} (h : work d = .ok a d') :
    guarded onFault work d = .ok a d' := by
  rw [guarded, h]

/-- A fault is answered with its message. -/
theorem guarded_of_error {onFault : Text → Answer} {work : Service Answer} {f : Fault} {d' : Desk}
    (h : work d = .error f d') : guarded onFault work d = .ok (onFault f.message) d' := by
  rw [guarded, h]

private theorem processAudio_of_ok [Soup] {u : Upload} {transcript : Except Text (Option Text)}
    {d' : Desk} (h : listen user u transcript d = .ok answer d') :
    processAudio user u transcript d = .ok (.response 200 answer) d' := by
  refine guarded_of_ok ?_
  rw [bind_of_ok h]
  rfl

/-- A spoken request that fails gets words of regret. -/
theorem processAudio_of_error [Soup] {u : Upload} {transcript : Except Text (Option Text)}
    {f : Fault} {d' : Desk} (h : listen user u transcript d = .error f d') :
    processAudio user u transcript d = .ok (.response 500 (regret f.message)) d' :=
  guarded_of_error (bind_of_error h)

end Requests

/-! ### Demonstrations -/

/-- The exchange of a sample. -/
def sampleExchange (s : String × String × String × String) : Except Json.Misuse Exchange :=
  Exchange.make s.1.toList s.2.1.toList (.text s.2.2.1.toList)
    (.object [("output_ducky_script".toList, .text s.2.2.2.toList)])

private theorem exists_sampleExchange (s : String × String × String × String) :
    ∃ e, sampleExchange s = .ok e ∧ e.script = .text s.2.2.2.toList := by
  have hshort : ∃ responded, Exchange.shorten (.text s.2.2.1.toList) = .ok responded := by
    unfold Exchange.shorten
    dsimp only [Json.length, Json.firstPart, bind, Except.bind]
    split <;> exact ⟨_, rfl⟩
  obtain ⟨responded, hresponded⟩ := hshort
  rw [sampleExchange, Exchange.make, hresponded]
  exact ⟨_, rfl, rfl⟩

/-- Remembers a sample. -/
def rememberSample (user : Text) (s : String × String × String × String) : Service Unit :=
  remember user s.1.toList s.2.1.toList (.text s.2.2.1.toList)
    (.object [("output_ducky_script".toList, .text s.2.2.2.toList)])

/-- The samples are remembered one after the other, and other conversations stay as they are. -/
theorem exists_rememberSamples (user : Text) (l : List (String × String × String × String))
    {d : Desk} {before : List Exchange} (h : d.memory.exchanges user = recent before) :
    ∃ new d', l.map sampleExchange = new.map .ok ∧ l.forM (rememberSample user) d = .ok () d' ∧
      d'.memory.exchanges user = recent (before ++ new) ∧
      ∀ other, other ≠ user → d'.memory.exchanges other = d.memory.exchanges other := by
  induction l generalizing d before with
  | nil => exact ⟨[], d, rfl, rfl, by rw [h, List.append_nil], fun _ _ ↦ rfl⟩
  | cons s rest ih =>
    obtain ⟨e, he, -⟩ := exists_sampleExchange s
    have hfirst : rememberSample user s d =
        .ok () { d with memory := (d.memory.openFor user).add user e } := by
      rw [sampleExchange] at he
      rw [rememberSample, remember, he]
      rfl
    have hopen := Memory.sameExchanges_openFor d.memory user
    have hadded : ((d.memory.openFor user).add user e).exchanges user =
        recent (before ++ [e]) := by
      rw [Memory.exchanges_add_self, hopen user, h, Memory.recent_append]
    obtain ⟨new, d', hnew, hrest, hexchanges, hothers⟩ :=
      ih (d := { d with memory := (d.memory.openFor user).add user e }) hadded
    refine ⟨e :: new, d', ?_, ?_, ?_, ?_⟩
    · rw [List.map_cons, he, hnew, List.map_cons]
    · exact (bind_of_ok hfirst).trans hrest
    · rw [hexchanges, List.append_assoc, List.singleton_append]
    · intro other hother
      rw [hothers other hother, Memory.exchanges_add_of_ne _ _ hother, hopen other]

/-- The scripts of the samples are texts. -/
theorem exists_text_of_samples {new : List Exchange} {l : List (String × String × String × String)}
    (h : l.map sampleExchange = new.map .ok) {e : Exchange} (he : e ∈ new) :
    ∃ t, e.script = .text t := by
  have hmem : .ok e ∈ l.map sampleExchange := by
    rw [h]
    exact List.mem_map_of_mem he
  obtain ⟨s, -, hs⟩ := List.mem_map.mp hmem
  obtain ⟨e', he', hscript⟩ := exists_sampleExchange s
  obtain rfl := Except.ok.inj (hs.symm.trans he')
  exact ⟨_, hscript⟩

private theorem exists_demonstrate_eq (user : Text) : ∃ body : Text → Nat → Json,
    demonstrate user = guarded (problem 500) (do
      modify fun d ↦ { d with memory := d.memory.put user [] }
      samples.forM (rememberSample user)
      let context ← context user
      let d ← get
      pure (.response 200 (body context (d.memory.exchanges user).length))) :=
  ⟨fun context total ↦ .object [("status", .text "success"),
    ("message", .text "Demo conversation history created"),
    ("conversation_context", .text context), ("total_conversations", .int total)], rfl⟩

/-- A demonstration always succeeds, and leaves the samples as the conversation of the user. -/
theorem exists_demonstrate (user : Text) (d : Desk) :
    ∃ new body d', samples.map sampleExchange = new.map .ok ∧
      demonstrate user d = .ok (.response 200 body) d' ∧ d'.memory.exchanges user = new ∧
      ∀ other, other ≠ user → d'.memory.exchanges other = d.memory.exchanges other := by
  have hstart : ({ d with memory := d.memory.put user [] } : Desk).memory.exchanges user =
      recent [] := Memory.exchanges_put_self d.memory user []
  obtain ⟨new, d', hnew, hsamples, hexchanges, hothers⟩ :=
    exists_rememberSamples user samples hstart
  have hlength : new.length = 3 := by
    have hlengths := congrArg List.length hnew
    rw [List.length_map, List.length_map] at hlengths
    exact hlengths.symm
  have hall : d'.memory.exchanges user = new := by
    rw [hexchanges, List.nil_append, recent, hlength]
    rfl
  -- the samples can be told, so nothing goes wrong after they are remembered
  obtain ⟨t, ht⟩ : ∃ t, d'.memory.context user = .ok t := by
    rw [← hall] at hnew
    refine Memory.exists_context ?_ ?_
    · intro e he
      obtain ⟨t, ht⟩ := exists_text_of_samples hnew he
      exact (Exchange.storable_of_text ht).1
    · intro e he
      obtain ⟨t, ht⟩ := exists_text_of_samples hnew he
      exact (Exchange.storable_of_text ht).2
  obtain ⟨body, hdemonstrate⟩ := exists_demonstrate_eq user
  refine ⟨new, body t 3, d', hnew, ?_, hall, ?_⟩
  · rw [hdemonstrate]
    refine guarded_of_ok ?_
    rw [bind_of_ok (run_modify _ d), bind_of_ok hsamples, bind_of_ok (context_of_ok ht),
      bind_of_ok (run_get d'), hall, hlength]
    rfl
  · intro other hother
    rw [hothers other hother]
    exact Memory.exchanges_put_of_ne d.memory [] hother

/-! ### Calls -/

/-- The user for whose conversation a call is made. Other calls change no conversation. -/
def Call.speaker? : Call → Option Text
  | .processAudio user .. => some user
  | .resetConversation user => some user
  | .demonstrate user => some user
  | _ => none

/-- Any other call does not touch the memory. -/
theorem keepsMemory_serve [Soup] {call : Call} (h : call.speaker? = none) :
    KeepsMemory (serve call) := by
  cases call with
  | processAudio user upload transcript outcomes => cases h
  | resetConversation user => cases h
  | trySearch query =>
    rw [serve, trySearch]
    exact .guarded (.bind (keepsMemory_search query) fun _ ↦ .pure _)
  | executeCommand body => exact keepsMemory_executeCommand body
  | resetLastCommand => exact .bind (.modify fun _ ↦ rfl) fun _ ↦ .pure _
  | conversationHistory user => exact keepsMemory_conversationHistory user
  | tryScript => exact .bind (keepsMemory_publishScript sampleScript) fun _ ↦ .pure _
  | demonstrate user => cases h
  | storePicture user data => exact keepsMemory_storePicture user data
  | welcome => exact .pure _

/-- What work ends with. -/
def resultOf : EStateM.Result Fault Desk α → Except Fault α
  | .ok a _ => .ok a
  | .error f _ => .error f

namespace Occasion

/-- The answer to the call. -/
def answer [Soup] (o : Occasion) (d : Desk) :
    Except Fault Answer := resultOf (serve o.call (o.find d))

/-- The call is a spoken request whose answer cannot be sent, as a number in it is not finite. -/
def Unsent [Soup] (o : Occasion) (d : Desk) : Prop :=
  ∃ user u transcript outcomes d', o.call = .processAudio user u transcript outcomes ∧
    listen user u transcript { o.find d with outcomes } = .error (.misuse .notFinite) d'

/-- What a call does to the conversations. -/
inductive Effect [Soup] (o : Occasion) (d : Desk) : Prop where
  /-- A spoken request is remembered with its answer, which is given if it can be sent. -/
  | kept {user : Text} {u : Upload} {transcript : Except Text (Option Text)}
    {outcomes : List Model.Outcome} {context : Text} {answer : Json} {e : Exchange}
    (call : o.call = .processAudio user u transcript outcomes)
    (told : d.memory.context user = .ok context) (said : transcription transcript ≠ [])
    (entry : exchangeOf (transcription transcript) answer = .ok e)
    (added : SameExchanges (d.memory.add user e) (o.leave d).memory)
    (answered : o.answer d = .ok (.response 200 answer) ∨ o.Unsent d)
  /-- Nothing was said. -/
  | silent {user : Text} {u : Upload} {transcript : Except Text (Option Text)}
    {outcomes : List Model.Outcome} {context : Text}
    (call : o.call = .processAudio user u transcript outcomes)
    (told : d.memory.context user = .ok context) (said : transcription transcript = [])
    (same : SameExchanges d.memory (o.leave d).memory)
    (answered : o.answer d = .ok (.response 200 nothingHeard))
  /-- A spoken request fails. -/
  | failed {user : Text} {u : Upload} {transcript : Except Text (Option Text)}
    {outcomes : List Model.Outcome} {message : Text}
    (call : o.call = .processAudio user u transcript outcomes)
    (same : SameExchanges d.memory (o.leave d).memory)
    (answered : o.answer d = .ok (.response 500 (regret message)))
  /-- A conversation is forgotten. -/
  | forgotten {user : Text} (call : o.call = .resetConversation user)
    (memory : (o.leave d).memory = d.memory.forget user)
    (answered : ∃ body, o.answer d = .ok (.plain body))
  /-- A conversation is replaced by the samples. -/
  | shown {user : Text} {new : List Exchange} (call : o.call = .demonstrate user)
    (new_eq : samples.map sampleExchange = new.map .ok)
    (conversation : (o.leave d).memory.exchanges user = new)
    (others : ∀ other, other ≠ user →
      (o.leave d).memory.exchanges other = d.memory.exchanges other)
    (answered : ∃ body, o.answer d = .ok (.response 200 body))
  /-- The call is for no conversation. -/
  | other (call : o.call.speaker? = none) (same : SameExchanges d.memory (o.leave d).memory)

/-- What a call that ends with an answer gives and leaves. -/
theorem answer_leave [Soup] {o : Occasion} {d d' : Desk} {call : Call} {a : Answer}
    (hcall : o.call = call) (h : serve call (o.find d) = .ok a d') :
    o.answer d = .ok a ∧ o.leave d = d' := by
  rw [answer, leave, hcall, h]
  exact ⟨rfl, rfl⟩

/-- A call whose answer cannot be sent is answered with words of regret. -/
theorem Unsent.exists_answer [Soup] {o : Occasion} {d : Desk} (h : o.Unsent d) :
    ∃ message, o.answer d = .ok (.response 500 (regret message)) := by
  obtain ⟨user, u, transcript, outcomes, d', hcall, hlisten⟩ := h
  exact ⟨_, (answer_leave hcall (processAudio_of_error hlisten)).1⟩

/-- Every call has one of these effects. -/
theorem effect [Soup] (o : Occasion) (d : Desk) : o.Effect d := by
  cases hcall : o.call with
  | processAudio user u transcript outcomes =>
    have hlistened := listened user u transcript { o.find d with outcomes }
    cases hresult : listen user u transcript { o.find d with outcomes } with
    | ok answer d' =>
      obtain ⟨hanswer, rfl⟩ := answer_leave hcall (processAudio_of_ok hresult)
      rw [hresult] at hlistened
      cases hlistened with
      | silent told said same => exact .silent hcall told said same hanswer
      | kept told said entry added => exact .kept hcall told said entry added (.inl hanswer)
    | error f d' =>
      obtain ⟨hanswer, rfl⟩ := answer_leave hcall (processAudio_of_error hresult)
      rw [hresult] at hlistened
      cases hlistened with
      | failed same => exact .failed hcall same hanswer
      | unsent told said entry added =>
        exact .kept hcall told said entry added
          (.inr ⟨user, u, transcript, outcomes, _, hcall, hresult⟩)
  | resetConversation user =>
    obtain ⟨hanswer, hleave⟩ := answer_leave (d := d) hcall rfl
    exact .forgotten hcall (congrArg Desk.memory hleave) ⟨_, hanswer⟩
  | demonstrate user =>
    obtain ⟨new, body, d', hnew, hdemonstrate, hconversation, hothers⟩ :=
      exists_demonstrate user (o.find d)
    obtain ⟨hanswer, rfl⟩ := answer_leave hcall hdemonstrate
    exact .shown hcall hnew hconversation hothers ⟨body, hanswer⟩
  | trySearch _ | executeCommand _ | resetLastCommand | conversationHistory _ | tryScript
  | storePicture _ _ | welcome =>
    have hspeaker : o.call.speaker? = none := by
      rw [hcall]
      rfl
    refine .other hspeaker fun user ↦ ?_
    rw [leave, (keepsMemory_serve hspeaker).memory_eq]
    rfl

end Occasion

/-- The desk after calls were answered one after the other. -/
def Desk.afterAll [Soup] (d : Desk) : List Occasion → Desk
  | [] => d
  | o :: rest => (o.leave d).afterAll rest

end Deskhand.Assistant
