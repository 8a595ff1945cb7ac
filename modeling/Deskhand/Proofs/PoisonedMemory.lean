import Deskhand.Proofs.Remembering

/-!
# Poisoned conversations

What is remembered of an exchange holds the script that the model replied, of whatever kind it was.
Most kinds are refused on the way into the memory and the others can be told later, with one
exception: a list with the bare delay command as an item is accepted, and from then on the
conversation cannot be told. All further requests of the user fail until the conversation is started
anew.
-/

namespace Deskhand.Assistant

open Service

/-! ### Scripts that get into the memory -/

section Scripts

variable {request : Text} {answer : Json} {e : Exchange}

/-- The script of an exchange is the one in the answer. -/
theorem script_of_exchangeOf (h : exchangeOf request answer = .ok e) :
    ∃ fields, answer = .object fields ∧
      e.script = (Table.get? fields "output_ducky_script").getD (.text []) := by
  obtain ⟨action, -, h⟩ := exists_of_bind_eq_ok h
  obtain ⟨response, hresponse, h⟩ := exists_of_bind_eq_ok h
  obtain ⟨responded, -, h⟩ := exists_of_bind_eq_ok h
  obtain ⟨script, hscript, h⟩ := exists_of_bind_eq_ok h
  cases h
  cases answer with
  | object fields =>
    refine ⟨fields, rfl, ?_⟩
    cases fields with
    | nil => exact (Except.ok.inj hscript).symm
    | cons _ _ => exact (Except.ok.inj hscript).symm
  | _ => cases hresponse

/-- What was done can be said of a script that counts as given only if it is a text or a list. -/
theorem text_or_list_of_actionOf {action : Text} {script : Json} (h : actionOf answer = .ok action)
    (hscript : answer.get "output_ducky_script" = .ok script) (htruth : script.truth = true) :
    (∃ t, script = .text t) ∨ ∃ items, script = .list items := by
  obtain ⟨_, hget, h⟩ := exists_of_bind_eq_ok h
  obtain rfl := Except.ok.inj (hscript.symm.trans hget)
  obtain ⟨_, -, h⟩ := exists_of_bind_eq_ok h
  obtain ⟨_, -, h⟩ := exists_of_bind_eq_ok h
  rw [if_pos htruth] at h
  obtain ⟨part, hpart, -⟩ := exists_of_bind_eq_ok h
  cases script with
  | text t => exact .inl ⟨t, rfl⟩
  | list items => exact .inr ⟨items, rfl⟩
  | _ => cases hpart

/-- A script that counts as given gets into the memory only if it is a text or a list. -/
theorem storable_of_exchangeOf (h : exchangeOf request answer = .ok e) : e.Storable := by
  obtain ⟨fields, rfl, hscript⟩ := script_of_exchangeOf h
  intro htruth
  obtain ⟨action, haction, -⟩ := exists_of_bind_eq_ok h
  cases hfield : Table.get? fields "output_ducky_script" with
  | none =>
    rw [hscript, hfield] at htruth
    cases htruth
  | some script =>
    rw [hfield, Option.getD_some] at hscript
    rw [hscript] at htruth ⊢
    refine text_or_list_of_actionOf haction ?_ htruth
    rw [Json.get, Json.get?, hfield]
    rfl

/-- The script in an answer is a list with the bare delay command as an item. -/
def ListsDelay (answer : Json) : Prop :=
  ∃ items, answer.field? "output_ducky_script" = some (.list items) ∧ .text "DELAY" ∈ items

private theorem poisons_iff_of_exchangeOf (h : exchangeOf request answer = .ok e) :
    e.Poisons ↔ ListsDelay answer := by
  obtain ⟨fields, rfl, hscript⟩ := script_of_exchangeOf h
  have hfield : (Json.object fields).field? "output_ducky_script" =
    Table.get? fields "output_ducky_script" := rfl
  rw [Exchange.Poisons, ListsDelay, hscript, hfield]
  cases Table.get? fields "output_ducky_script".toList with
  | none => simp
  | some script => simp

end Scripts

/-! ### Conversations that can be told -/

variable {d : Desk} {user : Text} {o : Occasion}

/-- An exchange in the conversation of a user poisons it. -/
def Desk.Poisoned (d : Desk) (user : Text) : Prop := ∃ e ∈ d.memory.exchanges user, e.Poisons

/-- All scripts in the memory are such as get into it. -/
def Desk.Stored (d : Desk) : Prop := ∀ user, ∀ e ∈ d.memory.exchanges user, e.Storable

/-- The memory keeps to such scripts, whatever is called. -/
theorem Occasion.stored_leave [Soup] (h : d.Stored) (o : Occasion) : (o.leave d).Stored := by
  intro user e he
  cases o.effect d with
  | kept call told said entry added answered =>
    rw [added user] at he
    rcases Memory.mem_exchanges_add he with hold | ⟨-, rfl⟩
    · exact h user e hold
    · exact storable_of_exchangeOf entry
  | silent _ _ _ same _ | failed _ same _ | other _ same =>
    rw [same user] at he
    exact h user e he
  | forgotten call memory answered =>
    rw [memory] at he
    exact h user e (Memory.mem_exchanges_of_forget he)
  | @shown speaker new call new_eq conversation others answered =>
    by_cases huser : user = speaker
    · rw [huser, conversation] at he
      obtain ⟨t, ht⟩ := exists_text_of_samples new_eq he
      exact (Exchange.storable_of_text ht).1
    · rw [others user huser] at he
      exact h user e he

private theorem Desk.stored_afterAll [Soup] (h : d.Stored) (occasions : List Occasion) :
    (d.afterAll occasions).Stored := by
  induction occasions generalizing d with
  | nil => exact h
  | cons o rest ih => exact ih (o.stored_leave h)

private theorem Desk.Stored.context_told_iff (h : d.Stored) (user : Text) :
    (∃ t, d.memory.context user = .ok t) ↔ ¬ d.Poisoned user := by
  constructor
  · rintro ⟨t, ht⟩ hpoisoned
    rw [Memory.context_of_poisons (h user) hpoisoned] at ht
    cases ht
  · intro hno
    exact Memory.exists_context (h user) fun e he hpoisons ↦ hno ⟨e, he, hpoisons⟩

/-! ### What poisons and what heals -/

/-- The message for a conversation that cannot be told. -/
def poisonMessage : Text := (Json.Misuse.noMember "list" "split").message

private theorem Desk.Stored.answer_processAudio [Soup] (h : d.Stored) (hpoisoned : d.Poisoned user)
    {u : Upload} {transcript : Except Text (Option Text)} {outcomes : List Model.Outcome}
    (hcall : o.call = .processAudio user u transcript outcomes) :
    o.answer d = .ok (.response 500 (regret poisonMessage)) := by
  have htold := Memory.context_of_poisons (h user) hpoisoned
  have hlisten : listen user u transcript { o.find d with outcomes } =
      .error (.misuse (.noMember "list" "split")) { o.find d with outcomes } :=
    bind_of_error (context_of_error htold)
  exact (Occasion.answer_leave hcall (processAudio_of_error hlisten)).1

private theorem Desk.Stored.answer_conversationHistory [Soup] (h : d.Stored)
    (hpoisoned : d.Poisoned user) (hcall : o.call = .conversationHistory user) :
    o.answer d = .ok (problem 500 poisonMessage) := by
  have htold : (o.find d).memory.context user = _ := Memory.context_of_poisons (h user) hpoisoned
  have hserve : serve (.conversationHistory user) (o.find d) =
      .ok (problem 500 poisonMessage) (o.find d) := by
    refine guarded_of_error (f := .misuse (.noMember "list" "split")) ?_
    rw [bind_of_ok (run_get _), bind_of_error (context_of_error htold)]
  exact (Occasion.answer_leave hcall hserve).1

/-- Only a new start changes a poisoned conversation. -/
theorem Desk.Stored.exchanges_leave [Soup] (h : d.Stored) (hpoisoned : d.Poisoned user)
    (hreset : o.call ≠ .resetConversation user) (hdemonstrate : o.call ≠ .demonstrate user) :
    (o.leave d).memory.exchanges user = d.memory.exchanges user := by
  cases o.effect d with
  | @kept speaker _ _ _ context _ _ call told _ _ added _ =>
    have hne : user ≠ speaker := by
      rintro rfl
      exact (h.context_told_iff user).mp ⟨context, told⟩ hpoisoned
    rw [added user, Memory.exchanges_add_of_ne _ _ hne]
  | silent _ _ _ same _ | failed _ same _ | other _ same => exact same user
  | @forgotten speaker call memory _ =>
    have hne : user ≠ speaker := fun heq ↦ hreset (by rw [call, heq])
    rw [memory, Memory.exchanges_forget_of_ne _ hne]
  | @shown speaker _ call _ _ others _ =>
    exact others user fun heq ↦ hdemonstrate (by rw [call, heq])

/-- A new start heals the conversation. -/
theorem not_poisoned_of_new_start [Soup]
    (h : o.call = .resetConversation user ∨ o.call = .demonstrate user) :
    ¬ (o.leave d).Poisoned user := by
  rintro ⟨e, he, hpoisons⟩
  have hspeaker : o.call.speaker? = some user := by
    rcases h with h | h <;> rw [h] <;> rfl
  cases o.effect d with
  | kept call | silent call | failed call =>
    rcases h with h | h <;> cases h.symm.trans call
  | forgotten call memory =>
    rw [call] at hspeaker
    cases hspeaker
    rw [memory, Memory.exchanges_forget_self] at he
    cases he
  | shown call new_eq conversation =>
    rw [call] at hspeaker
    cases hspeaker
    rw [conversation] at he
    obtain ⟨t, ht⟩ := exists_text_of_samples new_eq he
    exact (Exchange.storable_of_text ht).2 hpoisons
  | other call =>
    rw [call] at hspeaker
    cases hspeaker

/-- An answered request poisons the conversation exactly if its answer lists the delay command. -/
theorem Desk.Stored.poisoned_leave_iff [Soup] (h : d.Stored) {u : Upload}
    {transcript : Except Text (Option Text)} {outcomes : List Model.Outcome} {body : Json}
    (hcall : o.call = .processAudio user u transcript outcomes)
    (hanswer : o.answer d = .ok (.response 200 body)) :
    (o.leave d).Poisoned user ↔ ListsDelay body := by
  cases o.effect d with
  | @kept _ _ _ _ context answer e call told _ entry added answered =>
    obtain ⟨rfl, -⟩ := Call.processAudio.inj (call.symm.trans hcall)
    have hbody : answer = body := by
      rcases answered with answered | hunsent
      · cases answered.symm.trans hanswer
        rfl
      · obtain ⟨message, hfailed⟩ := hunsent.exists_answer
        cases hfailed.symm.trans hanswer
    have hbefore := (h.context_told_iff _).mp ⟨context, told⟩
    rw [← hbody, ← poisons_iff_of_exchangeOf entry, Poisoned, added]
    constructor
    · rintro ⟨e', he', hpoisons⟩
      rcases Memory.mem_exchanges_add he' with hold | ⟨-, rfl⟩
      · exact absurd ⟨e', hold, hpoisons⟩ hbefore
      · exact hpoisons
    · exact fun hpoisons ↦ ⟨e, Memory.mem_exchanges_add_self .., hpoisons⟩
  | @silent _ _ _ _ context call told _ same answered =>
    obtain ⟨rfl, -⟩ := Call.processAudio.inj (call.symm.trans hcall)
    cases answered.symm.trans hanswer
    refine iff_of_false ?_ ?_
    · rw [Poisoned, same]
      exact (h.context_told_iff _).mp ⟨context, told⟩
    · rintro ⟨items, hitems, -⟩
      cases hitems
  | failed _ _ answered => cases answered.symm.trans hanswer
  | forgotten call => cases call.symm.trans hcall
  | shown call => cases call.symm.trans hcall
  | other call =>
    rw [hcall] at call
    cases call

/-- Only one kind of reply poisons a memory (`get_conversation_context`). After any sequence of calls
in any circumstances, the conversation of a user can be told exactly if no exchange in it has a list
with the bare delay command for a script. An answered request brings about such an exchange exactly
if its answer has such a script. From then on the user's requests and questions about the
conversation fail before they start and nothing changes the conversation, until it is forgotten or
replaced by a demonstration: then it can be told again. -/
theorem Desk.context_told_iff_not_poisoned [Soup] (d : Desk) (hd : d.memory = [])
    (occasions : List Occasion) (user : Text) :
    let d' := d.afterAll occasions
    ((∃ t, d'.memory.context user = .ok t) ↔ ¬ d'.Poisoned user) ∧
    ∀ o : Occasion,
      (∀ u transcript outcomes, o.call = .processAudio user u transcript outcomes →
        (∀ body, o.answer d' = .ok (.response 200 body) →
          ((o.leave d').Poisoned user ↔ ListsDelay body)) ∧
        (d'.Poisoned user → o.answer d' = .ok (.response 500 (regret poisonMessage)))) ∧
      (o.call = .conversationHistory user → d'.Poisoned user →
        o.answer d' = .ok (problem 500 poisonMessage)) ∧
      (o.call ≠ .resetConversation user → o.call ≠ .demonstrate user → d'.Poisoned user →
        (o.leave d').memory.exchanges user = d'.memory.exchanges user) ∧
      (o.call = .resetConversation user ∨ o.call = .demonstrate user →
        ¬ (o.leave d').Poisoned user) := by
  intro d'
  have hstored : d'.Stored := by
    refine stored_afterAll ?_ occasions
    intro user e he
    rw [hd] at he
    cases he
  refine ⟨hstored.context_told_iff user, fun o ↦ ⟨?_, ?_, ?_, not_poisoned_of_new_start⟩⟩
  · intro u transcript outcomes hcall
    exact ⟨fun body hanswer ↦ hstored.poisoned_leave_iff hcall hanswer,
      fun hpoisoned ↦ hstored.answer_processAudio hpoisoned hcall⟩
  · exact fun hcall hpoisoned ↦ hstored.answer_conversationHistory hpoisoned hcall
  · exact fun hreset hdemonstrate hpoisoned ↦ hstored.exchanges_leave hpoisoned hreset hdemonstrate

/-- Someone greets the assistant, and the model replies with a list for a script. -/
def Occasion.delayListed (user : Text) : Occasion :=
  .plain (.processAudio user ⟨none, .ok []⟩ (.ok (some "hi".toList))
    [.content (some "\x7b\"output_ducky_script\": [\"DELAY\"]\x7d".toList)])

/-- After one such reply the conversation cannot be told. -/
theorem Desk.context_untold_after_list :
    (ready.afterAll [.delayListed "bob"]).memory.context "bob" =
      .error (.noMember "list" "split") := by
  decide +kernel

/-- Such a reply poisons the conversation, questions about it fail, and forgetting heals it. -/
theorem Desk.context_told_iff_not_poisoned_list :
    let d' := ready.afterAll [.delayListed "bob"]
    ready.memory = [] ∧ d'.Poisoned "bob" ∧
      (Occasion.plain (.conversationHistory "bob")).answer d' = .ok (problem 500 poisonMessage) ∧
      ¬ ((Occasion.plain (.resetConversation "bob")).leave d').Poisoned "bob" := by
  intro d'
  obtain ⟨htold, hcalls⟩ :=
    ready.context_told_iff_not_poisoned rfl [.delayListed "bob"] "bob".toList
  have hcontext : d'.memory.context "bob" = .error (.noMember "list" "split") := by
    decide +kernel
  have hpoisoned : d'.Poisoned "bob" := by
    by_contra hno
    obtain ⟨t, ht⟩ := htold.mpr hno
    cases hcontext.symm.trans ht
  exact ⟨rfl, hpoisoned, (hcalls _).2.1 rfl hpoisoned, (hcalls _).2.2.2 (.inl rfl)⟩

end Deskhand.Assistant
