import Deskhand.Proofs.Publishing

/-!
# No script is sent twice in a row

Requests to publish come in any order, the broker takes them or not, and now and then the last
script is forgotten. What is seen of such a run are the answers and the messages; from these alone
the script of the last message since the last forgetting can be told. The desk remembers exactly
that script, so each answer depends on what was seen before in the way the rules for publishing say.
-/

namespace Deskhand.Assistant

open Broker (Admitted Carries Message repeats scriptMessage scriptOf?)

/-- Something that happens to the desk: a request to publish, with the broker taking messages or
not, or the last script being forgotten. -/
inductive Turn where
  | publish (request : Json) (up : Bool)
  | forget

/-- What is seen of a turn. -/
inductive Seen where
  /-- A request, whether the broker took messages, the answer, and the messages published. -/
  | asked (request : Json) (up : Bool) (answer : Except Fault Bool) (messages : List Message)
  | forgotten

/-- Takes a turn. -/
def Turn.take (d : Desk) : Turn → Seen × Desk
  | .publish request up =>
    match Service.publishScript request { d with brokerUp := up } with
    | .ok answer d' => (.asked request up (.ok answer) (d'.sent.drop d.sent.length), d')
    | .error fault d' => (.asked request up (.error fault) (d'.sent.drop d.sent.length), d')
  | .forget =>
    match Service.resetLast d with
    | .ok _ d' => (.forgotten, d')
    | .error _ d' => (.forgotten, d')

/-- Takes turns one after the other: what is seen of them, and the desk they leave. -/
def Desk.takeAll (d : Desk) : List Turn → List Seen × Desk
  | [] => ([], d)
  | turn :: rest =>
    ((turn.take d).1 :: ((turn.take d).2.takeAll rest).1, ((turn.take d).2.takeAll rest).2)

namespace Seen

/-- The last script after something was seen, `last` being the one before. -/
def update (last : Option Text) : Seen → Option Text
  | .asked request _ _ messages => if messages.isEmpty then last else scriptOf? request
  | .forgotten => none

/-- The script, in normal form, of the last message published since the last forgetting. -/
def lastScript (seen : List Seen) : Option Text := seen.foldl update none

/-- A request for which nothing was published. -/
def IsRefusal (n : Seen) : Prop := ∃ request up answer, n = .asked request up answer []

/-- What is seen of a request is what the rules say, `last` being the last script before it. -/
inductive Right (s : Settings) (last : Option Text) : Seen → Prop where
  | published {request : Json} {message : Message} (admitted : Admitted s last request)
    (topic : message.topic = s.scripts.topic) (carries : Carries request message.payload) :
    Right s last (.asked request true (.ok true) [message])
  | refused {request : Json} {up : Bool} (h : ¬ (Admitted s last request ∧ up = true)) :
    Right s last (.asked request up (.ok false) [])
  | forgotten : Right s last .forgotten

/-- All that is seen is right, in the light of what was seen before. -/
def AllRight (s : Settings) (last : Option Text) : List Seen → Prop
  | [] => True
  | n :: rest => n.Right s last ∧ AllRight s (n.update last) rest

variable {s : Settings} {last : Option Text}

private theorem foldl_update_of_refusals {seen : List Seen} (h : ∀ n ∈ seen, n.IsRefusal) :
    seen.foldl update last = last := by
  induction seen generalizing last with
  | nil => rfl
  | cons n rest ih =>
    obtain ⟨request, up, answer, rfl⟩ := h n (by simp)
    exact ih fun n hn ↦ h n (by simp [hn])

/-- Anything among what is seen is right in the light of what was seen before it. -/
theorem AllRight.right {before after : List Seen} {n : Seen}
    (h : AllRight s last (before ++ n :: after)) : n.Right s (before.foldl update last) := by
  induction before generalizing last with
  | nil => exact h.1
  | cons first rest ih => exact ih h.2

end Seen

open Seen (AllRight IsRefusal Right lastScript update)

/-! ### One turn -/

namespace Turn

variable {d : Desk} {request : Json} {script : Text}

/-- A request that may be sent is published when the broker takes messages. -/
theorem take_of_admitted (ha : Admitted d.settings d.lastCommand request)
    (hs : scriptOf? request = some script) : (publish request true).take d =
      (.asked request true (.ok true) [scriptMessage d.settings request script],
        { d with
          brokerUp := true
          sent := d.sent ++ [scriptMessage d.settings request script]
          lastCommand := some script }) := by
  have hrun := Service.publishScript_of_admitted (d := { d with brokerUp := true }) ha hs rfl
  have hnew : (d.sent ++ [scriptMessage d.settings request script]).drop d.sent.length =
      [scriptMessage d.settings request script] := List.drop_left
  rw [take, hrun]
  dsimp only
  rw [hnew]

private theorem take_of_refused {up : Bool}
    (h : ¬ (Admitted d.settings d.lastCommand request ∧ up = true)) :
    (publish request up).take d =
      (.asked request up (.ok false) [], { d with brokerUp := up }) := by
  have hrun := Service.publishScript_of_refused (d := { d with brokerUp := up }) h
  rw [take, hrun]
  dsimp only
  rw [List.drop_length]

/-- A turn is seen rightly, it changes no settings, and the desk remembers the last script. -/
theorem right_take (turn : Turn) (d : Desk) :
    (turn.take d).1.Right d.settings d.lastCommand ∧ (turn.take d).2.settings = d.settings ∧
      (turn.take d).2.lastCommand = (turn.take d).1.update d.lastCommand := by
  cases turn with
  | forget => exact ⟨.forgotten, rfl, rfl⟩
  | publish request up =>
    by_cases h : Admitted d.settings d.lastCommand request ∧ up = true
    · obtain ⟨ha, rfl⟩ := h
      obtain ⟨script, hs⟩ := ha.exists_script
      rw [take_of_admitted ha hs]
      exact ⟨.published ha rfl (Broker.carries_scriptMessage hs), rfl, hs.symm⟩
    · rw [take_of_refused h]
      exact ⟨.refused h, rfl, rfl⟩

end Turn

/-! ### Runs -/

namespace Desk

/-- All that is seen of turns is right, and the desk remembers the last script. -/
theorem allRight_takeAll (d : Desk) (turns : List Turn) :
    AllRight d.settings d.lastCommand (d.takeAll turns).1 ∧
      (d.takeAll turns).2.settings = d.settings ∧
      (d.takeAll turns).2.lastCommand = (d.takeAll turns).1.foldl update d.lastCommand := by
  induction turns generalizing d with
  | nil => exact ⟨trivial, rfl, rfl⟩
  | cons turn rest ih =>
    obtain ⟨hright, hsettings, hlast⟩ := turn.right_take d
    obtain ⟨hall, hsettings', hlast'⟩ := ih (turn.take d).2
    rw [hsettings, hlast] at hall
    rw [hsettings] at hsettings'
    rw [hlast] at hlast'
    exact ⟨⟨hright, hall⟩, hsettings', hlast'⟩

private theorem takeAll_append (d : Desk) (turns more : List Turn) :
    (d.takeAll (turns ++ more)).1 =
      (d.takeAll turns).1 ++ ((d.takeAll turns).2.takeAll more).1 := by
  induction turns generalizing d with
  | nil => rfl
  | cons turn rest ih => exact congrArg ((turn.take d).1 :: ·) (ih _)

/-- A request that may be sent but was refused, since the broker took no messages, is published once
the broker takes them. -/
theorem takeAll_retry {d : Desk} {request : Json}
    (h : Admitted d.settings d.lastCommand request) : ∃ message,
      (d.takeAll [.publish request false, .publish request true]).1 =
        [.asked request false (.ok false) [], .asked request true (.ok true) [message]] := by
  obtain ⟨script, hs⟩ := h.exists_script
  have hfirst : (Turn.publish request false).take d =
      (.asked request false (.ok false) [], { d with brokerUp := false }) :=
    Turn.take_of_refused fun h ↦ Bool.false_ne_true h.2
  have hsecond := Turn.take_of_admitted (d := { d with brokerUp := false }) h hs
  refine ⟨scriptMessage d.settings request script, ?_⟩
  rw [takeAll, takeAll, hfirst]
  dsimp only
  rw [hsecond]
  rfl

/-- Whether a request is published depends on what was seen before it alone
(`publish_ducky_script_to_mqtt`). Wherever a request stands in a run, it is answered with yes and
exactly one message goes out if and only if it may be sent after the last script seen and the broker
takes messages; the message is the request itself with its script in normal form. Otherwise the
answer is no, nothing goes out and the last script stays the same. So of two successive messages with
one script the later one was asked to repeat it, and a request that was refused for want of a broker
can be made again. -/
theorem published_iff_admitted (d : Desk) (hd : d.lastCommand = none) (turns : List Turn) :
    (∀ before request up answer messages after,
      (d.takeAll turns).1 = before ++ .asked request up answer messages :: after →
        ((answer = .ok true ∧ ∃ message, messages = [message] ∧
            message.topic = d.settings.scripts.topic ∧ Carries request message.payload) ↔
          Admitted d.settings (lastScript before) request ∧ up = true) ∧
        (¬ (Admitted d.settings (lastScript before) request ∧ up = true) →
          answer = .ok false ∧ messages = [] ∧
            lastScript (before ++ [.asked request up answer messages]) = lastScript before)) ∧
    (∀ before first up answer message between second up' answer' message' after,
      (d.takeAll turns).1 = before ++ .asked first up answer [message] :: (between ++
          .asked second up' answer' [message'] :: after) →
        (∀ n ∈ between, n.IsRefusal) → scriptOf? first = scriptOf? second →
          repeats second = true) ∧
    (∀ request, Admitted d.settings (lastScript (d.takeAll turns).1) request → ∃ message,
      (d.takeAll (turns ++ [.publish request false, .publish request true])).1 =
        (d.takeAll turns).1 ++
          [.asked request false (.ok false) [], .asked request true (.ok true) [message]]) := by
  obtain ⟨hall, hsettings, hlast⟩ := d.allRight_takeAll turns
  rw [hd] at hall hlast
  refine ⟨?_, ?_, ?_⟩
  · intro before request up answer messages after hseen
    rw [hseen] at hall
    cases hall.right with
    | published ha ht hc =>
      exact ⟨iff_of_true ⟨rfl, _, rfl, ht, hc⟩ ⟨ha, rfl⟩, fun hno ↦ absurd ⟨ha, rfl⟩ hno⟩
    | refused hno =>
      refine ⟨iff_of_false (fun h ↦ nomatch h.1) hno, fun _ ↦ ⟨rfl, rfl, ?_⟩⟩
      rw [lastScript, List.foldl_append]
      rfl
  · intro before first up answer message between second up' answer' message' after hseen hno heq
    rw [hseen, ← List.cons_append, ← List.append_assoc] at hall
    have hbefore : (before ++ .asked first up answer [message] :: between).foldl update none =
        scriptOf? first := by
      rw [List.foldl_append, List.foldl_cons, Seen.foldl_update_of_refusals hno]
      rfl
    have hright := hall.right
    rw [hbefore] at hright
    cases hright with
    | published ha _ _ => exact ha.fresh.resolve_right fun hne ↦ hne heq
  · intro request hadm
    have hadm' : Admitted (d.takeAll turns).2.settings (d.takeAll turns).2.lastCommand request := by
      rw [hsettings, hlast]
      exact hadm
    obtain ⟨message, hmore⟩ := takeAll_retry hadm'
    refine ⟨message, ?_⟩
    rw [takeAll_append, hmore]

/-- A request to press enter. -/
def pressEnter (again : Bool) : Json :=
  .object [("password", .text "E1s2t3e4r5"), ("script", .text "ENTER"), ("repeat", .bool again)]

/-- After a first request to press enter, the same one is refused and one that asks for a repetition
is published; a further one can be made again after the broker took no messages. -/
theorem published_iff_admitted_enter :
    let turns : List Turn := [.publish (pressEnter false) true, .publish (pressEnter false) true,
      .publish (pressEnter true) true]
    ready.lastCommand = none ∧
      (∃ message message', (ready.takeAll turns).1 =
        [.asked (pressEnter false) true (.ok true) [message],
          .asked (pressEnter false) true (.ok false) [],
          .asked (pressEnter true) true (.ok true) [message']]) ∧
      repeats (pressEnter true) = true ∧
      ∃ message, (ready.takeAll (turns ++
          [.publish (pressEnter true) false, .publish (pressEnter true) true])).1 =
        (ready.takeAll turns).1 ++ [.asked (pressEnter true) false (.ok false) [],
          .asked (pressEnter true) true (.ok true) [message]] := by
  intro turns
  have h := published_iff_admitted ready rfl turns
  refine ⟨rfl, ⟨_, _, rfl⟩, ?_, ?_⟩
  · refine h.2.1 [] (pressEnter false) true (.ok true) _
      [.asked (pressEnter false) true (.ok false) []] (pressEnter true) true (.ok true) _ [] rfl ?_
      rfl
    intro n hn
    exact ⟨_, _, _, List.mem_singleton.mp hn⟩
  · exact h.2.2 (pressEnter true)
      ⟨⟨"E1s2t3e4r5", by decide, rfl, rfl⟩, ⟨"ENTER", by decide, rfl⟩, .inl rfl⟩

end Desk

end Deskhand.Assistant
