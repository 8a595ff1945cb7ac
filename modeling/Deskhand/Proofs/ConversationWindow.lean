import Deskhand.Proofs.Remembering

/-!
# The window on a conversation

Calls of any users come in any order. From the calls and their answers alone it can be told what the
calls of a user contributed to the conversation since it was last started anew. The memory holds the
last five of these exchanges: an answered request adds one, whatever the model replied, and a
request that fails neither adds nor pushes out any.
-/

namespace Deskhand.Assistant

open Memory (SameExchanges recent)

/-- A call and what came of it. -/
structure Answered where
  call : Call
  answer : Except Fault Answer

/-- The calls of a run with their answers. -/
def Desk.answerAll [Soup] (d : Desk) : List Occasion → List Answered
  | [] => []
  | o :: rest => ⟨o.call, o.answer d⟩ :: (o.leave d).answerAll rest

/-- In a run no answer to a spoken request fails to be sent. -/
def Desk.SendsAll [Soup] (d : Desk) : List Occasion → Prop
  | [] => True
  | o :: rest => ¬ o.Unsent d ∧ (o.leave d).SendsAll rest

/-- What calls contributed to the conversation of a user, with one more call. An answered request in
which something was said adds the exchange of the request and the answer. Forgetting starts anew,
and so does a demonstration, with the samples. -/
def contribute (user : Text) (entries : List (Except Json.Misuse Exchange)) (seen : Answered) :
    List (Except Json.Misuse Exchange) :=
  match seen.call with
  | .processAudio speaker _ transcript _ =>
    match seen.answer with
    | .ok (.response status body) =>
      if speaker = user ∧ status = 200 ∧ transcription transcript ≠ [] then
        entries ++ [exchangeOf (transcription transcript) body]
      else entries
    | _ => entries
  | .resetConversation speaker => if speaker = user then [] else entries
  | .demonstrate speaker => if speaker = user then samples.map sampleExchange else entries
  | _ => entries

/-- What calls contributed to the conversation of a user since it was last started anew. -/
def contributions (user : Text) (seen : List Answered) : List (Except Json.Misuse Exchange) :=
  seen.foldl (contribute user) []

section Contributions

variable {user speaker : Text} {entries : List (Except Json.Misuse Exchange)} {seen : Answered}
  {u : Upload} {transcript : Except Text (Option Text)} {outcomes : List Model.Outcome}

private theorem contribute_answered {body : Json}
    (hcall : seen.call = .processAudio speaker u transcript outcomes)
    (hanswer : seen.answer = .ok (.response 200 body)) (hsaid : transcription transcript ≠ []) :
    contribute user entries seen =
      if speaker = user then entries ++ [exchangeOf (transcription transcript) body]
      else entries := by
  rw [contribute, hcall, hanswer]
  simp [hsaid]

private theorem contribute_silent (hcall : seen.call = .processAudio speaker u transcript outcomes)
    (hsaid : transcription transcript = []) : contribute user entries seen = entries := by
  rw [contribute, hcall]
  dsimp only
  split
  · exact if_neg fun h ↦ h.2.2 hsaid
  · rfl

private theorem contribute_failed {body : Json}
    (hcall : seen.call = .processAudio speaker u transcript outcomes)
    (hanswer : seen.answer = .ok (.response 500 body)) :
    contribute user entries seen = entries := by
  rw [contribute, hcall, hanswer]
  exact if_neg fun h ↦ absurd h.2.1 (by decide)

private theorem contribute_other (h : seen.call.speaker? = none) :
    contribute user entries seen = entries := by
  obtain ⟨call, answer⟩ := seen
  cases call <;> first | rfl | cases h

end Contributions

/-! ### One call -/

variable {user : Text} {entries : List (Except Json.Misuse Exchange)} {o : Occasion} {d : Desk}

private theorem map_recent (l : List Exchange) :
    ((recent l).map .ok : List (Except Json.Misuse Exchange)) = (l.map .ok).rtake 5 := by
  rw [recent, List.map_drop, List.rtake, List.length_map]
  rfl

/-- If the conversation is the window on what was contributed, it is so after one more call. -/
theorem map_exchanges_leave [Soup] (hsent : ¬ o.Unsent d)
    (h : (d.memory.exchanges user).map .ok = entries.rtake 5) :
    ((o.leave d).memory.exchanges user).map .ok =
      (contribute user entries ⟨o.call, o.answer d⟩).rtake 5 := by
  cases o.effect d with
  | @kept speaker _ _ _ _ _ e call _ said entry added answered =>
    rw [contribute_answered call (answered.resolve_right hsent) said, added user]
    by_cases hspeaker : speaker = user
    · subst hspeaker
      rw [if_pos rfl, entry, Memory.exchanges_add_self, map_recent, List.map_append, h,
        rtake_rtake_append]
      rfl
    · rw [if_neg hspeaker, Memory.exchanges_add_of_ne _ _ (Ne.symm hspeaker), h]
  | silent call _ said same _ => rw [contribute_silent call said, same user, h]
  | failed call same answered => rw [contribute_failed call answered, same user, h]
  | @forgotten speaker call memory answered =>
    rw [memory, contribute, call]
    dsimp only
    by_cases hspeaker : speaker = user
    · rw [if_pos hspeaker, hspeaker, Memory.exchanges_forget_self]
      rfl
    · rw [if_neg hspeaker, Memory.exchanges_forget_of_ne _ (Ne.symm hspeaker), h]
  | @shown speaker new call new_eq conversation others answered =>
    rw [contribute, call]
    dsimp only
    by_cases hspeaker : speaker = user
    · rw [if_pos hspeaker, ← hspeaker, conversation, ← new_eq]
      rfl
    · rw [if_neg hspeaker, others user (Ne.symm hspeaker), h]
  | other call same => rw [contribute_other call, same user, h]

/-- The call has nothing to add to the conversation of a user: it is for another conversation or for
none, or nothing was said, or it fails. -/
inductive Occasion.Spares [Soup] (o : Occasion) (d : Desk) (user : Text) : Prop where
  | elsewhere (h : o.call.speaker? ≠ some user)
  | silent {speaker : Text} {u : Upload} {transcript : Except Text (Option Text)}
    {outcomes : List Model.Outcome} (call : o.call = .processAudio speaker u transcript outcomes)
    (said : transcription transcript = [])
  | failed {body : Json} (answered : o.answer d = .ok (.response 500 body))

/-- A call for a conversation that neither is silent nor fails has something to add to it. -/
theorem Occasion.Spares.ne [Soup] {speaker : Text} (h : o.Spares d user)
    (hspeaker : o.call.speaker? = some speaker)
    (hsaid : ∀ speaker u transcript outcomes,
      o.call = .processAudio speaker u transcript outcomes → transcription transcript ≠ [])
    (hanswer : ∀ body, o.answer d ≠ .ok (.response 500 body)) : user ≠ speaker := by
  rintro rfl
  cases h with
  | elsewhere h => exact h hspeaker
  | silent call said => exact hsaid _ _ _ _ call said
  | failed answered => exact hanswer _ answered

/-- A call with nothing to add leaves the conversation as it is. -/
theorem exchanges_leave_of_spares [Soup] (hsent : ¬ o.Unsent d) (h : o.Spares d user) :
    (o.leave d).memory.exchanges user = d.memory.exchanges user := by
  cases o.effect d with
  | @kept speaker _ _ _ _ _ e call _ said entry added answered =>
    have hne : user ≠ speaker := by
      refine h.ne (by rw [call]; rfl) ?_ ?_
      · intro _ _ _ _ hcall
        rw [call] at hcall
        cases hcall
        exact said
      · rw [answered.resolve_right hsent]
        exact fun _ ↦ nofun
    rw [added user, Memory.exchanges_add_of_ne _ _ hne]
  | silent _ _ _ same _ => exact same user
  | failed _ same _ => exact same user
  | @forgotten speaker call memory answered =>
    obtain ⟨v, hanswer⟩ := answered
    have hne : user ≠ speaker := by
      refine h.ne (by rw [call]; rfl) ?_ ?_
      · rw [call]
        exact fun _ _ _ _ ↦ nofun
      · rw [hanswer]
        exact fun _ ↦ nofun
    rw [memory, Memory.exchanges_forget_of_ne _ hne]
  | @shown speaker new call new_eq conversation others answered =>
    obtain ⟨v, hanswer⟩ := answered
    have hne : user ≠ speaker := by
      refine h.ne (by rw [call]; rfl) ?_ ?_
      · rw [call]
        exact fun _ _ _ _ ↦ nofun
      · rw [hanswer]
        exact fun _ ↦ nofun
    exact others user hne
  | other call same => exact same user

/-! ### Runs -/

private theorem Desk.map_exchanges_afterAll [Soup] {occasions : List Occasion}
    (hsent : d.SendsAll occasions) (h : (d.memory.exchanges user).map .ok = entries.rtake 5) :
    ((d.afterAll occasions).memory.exchanges user).map .ok =
      ((d.answerAll occasions).foldl (contribute user) entries).rtake 5 := by
  induction occasions generalizing d entries with
  | nil => exact h
  | cons o rest ih => exact ih hsent.2 (map_exchanges_leave hsent.1 h)

/-- The memory of a user is a window on the conversation (`update_conversation_summary`). After any
sequence of calls in any circumstances, with answers that can be sent, the conversation of a user
consists of the last five of the exchanges that the user's calls contributed since it was last
started anew, in their order. Calls for other conversations or for none, calls in which nothing was
said and calls that fail leave it as it is. -/
theorem Desk.exchanges_eq_window [Soup] (d : Desk) (hd : d.memory = []) (occasions : List Occasion)
    (hsent : d.SendsAll occasions) (user : Text) :
    ((d.afterAll occasions).memory.exchanges user).map .ok =
      (contributions user (d.answerAll occasions)).rtake 5 ∧
    ∀ o : Occasion, ¬ o.Unsent (d.afterAll occasions) → o.Spares (d.afterAll occasions) user →
      (o.leave (d.afterAll occasions)).memory.exchanges user =
        (d.afterAll occasions).memory.exchanges user := by
  refine ⟨map_exchanges_afterAll hsent ?_, fun o ho h ↦ exchanges_leave_of_spares ho h⟩
  rw [hd]
  rfl

/-- Whether a call was answered without a fault. -/
def succeeded : Except Fault Answer → Bool
  | .ok (.response status _) => status == 200
  | .ok (.plain _) => true
  | .error _ => false

private theorem not_unsent_of_succeeded [Soup] (h : succeeded (o.answer d) = true) :
    ¬ o.Unsent d := by
  intro hunsent
  obtain ⟨message, hanswer⟩ := hunsent.exists_answer
  rw [hanswer] at h
  cases h

private theorem not_unsent_of_call [Soup] (h : ∀ user u transcript outcomes,
    o.call ≠ .processAudio user u transcript outcomes) : ¬ o.Unsent d := by
  rintro ⟨user, u, transcript, outcomes, d', hcall, -⟩
  exact h user u transcript outcomes hcall

/-- Someone greets the assistant while the model cannot be reached. -/
def Occasion.greeting (user : Text) : Occasion :=
  .plain (.processAudio user ⟨none, .ok []⟩ (.ok (some "hi".toList)) [.failed "down".toList])

/-- Two greetings, and a demonstration for another user. -/
def greetings : List Occasion :=
  [.greeting "bob", .greeting "bob", .plain (.demonstrate "ada")]

/-- The conversation of the one who greeted is what the greetings contributed, also after it was
asked for. -/
theorem Desk.exchanges_eq_window_greetings :
    ready.memory = [] ∧ ready.SendsAll greetings ∧
    ((ready.afterAll greetings).memory.exchanges "bob").map .ok =
      (contributions "bob" (ready.answerAll greetings)).rtake 5 ∧
    ((Occasion.plain (.conversationHistory "bob")).leave
      (ready.afterAll greetings)).memory.exchanges "bob" =
        (ready.afterAll greetings).memory.exchanges "bob" := by
  have hsent : ready.SendsAll greetings :=
    ⟨not_unsent_of_succeeded (by decide +kernel), not_unsent_of_succeeded (by decide +kernel),
      not_unsent_of_call fun _ _ _ _ ↦ nofun, trivial⟩
  obtain ⟨hwindow, hspared⟩ := ready.exchanges_eq_window rfl greetings hsent "bob".toList
  exact ⟨rfl, hsent, hwindow,
    hspared _ (not_unsent_of_call fun _ _ _ _ ↦ nofun) (.elsewhere nofun)⟩

end Deskhand.Assistant
