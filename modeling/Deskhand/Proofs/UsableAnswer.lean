import Deskhand.Assistant.Listen
import Deskhand.Html.Select
import Deskhand.Proofs.Editing
import Deskhand.Proofs.JsonReading
import Deskhand.Proofs.Publishing

/-!
# Usable answers

The model's reply is any text, or there is none. Whatever comes of a question, asking never fails,
and the answer is an object unless the reply strays: it holds, as a whole or else in a code block, a
JSON value of another kind. A request that was heard is then answered with an object that holds the
request, also when a search is wanted on the way.
-/

namespace Deskhand

/-- Whether a value is an object. -/
def Json.isObject : Json → Bool
  | .object _ => true
  | _ => false

private theorem Json.isObject_iff {v : Json} :
    v.isObject = true ↔ ∃ fields, v = .object fields := by
  cases v <;> simp [isObject]

namespace Text

private theorem exists_trim_cons {c : Char} (hc : isBlank c = false) (t : Text) :
    ∃ rest, trim (c :: t) = c :: rest := by
  have hleft : trimLeft (c :: t) = c :: t := List.dropWhile_cons_of_neg (by simp [hc])
  have hlast : [c].dropWhile isBlank = [c] := List.dropWhile_cons_of_neg (by simp [hc])
  rw [trim, hleft, trimRight, List.reverse_cons, List.dropWhile_append, hlast]
  split
  · exact ⟨[], rfl⟩
  · exact ⟨(t.reverse.dropWhile isBlank).reverse, by simp⟩

end Text

namespace Reply

/-- The code blocks of a reply that are looked at for an answer. -/
def blocks (reply : Text) : List Text :=
  [between? "```json\n" "\n```" reply, between? "```\n" "\n```" reply].filterMap (·.map Text.trim)

/-- The first of some texts that is JSON stands for the value, those before it being flawed. -/
inductive FirstJson (v : Json) : List Text → Prop where
  | here {t : Text} {rest : List Text} (h : Json.read t = .ok v) : FirstJson v (t :: rest)
  | later {t : Text} {rest : List Text} (h : Json.isFlawed t = true) (hrest : FirstJson v rest) :
    FirstJson v (t :: rest)

/-- A reply strays if it holds a value that is no object: as a whole or else in a code block. -/
def Strays (reply : Text) : Prop := ∃ v, FirstJson v (reply :: blocks reply) ∧ v.isObject = false

variable {reply : Text} {v : Json}

/-- The first text that is JSON is found. -/
theorem firstJson?_eq_some_iff {texts : List Text} :
    firstJson? texts = .ok (some v) ↔ FirstJson v texts := by
  induction texts with
  | nil =>
    constructor
    · intro h
      cases h
    · intro h
      cases h
  | cons t rest ih =>
    constructor
    · intro h
      unfold firstJson? at h
      split at h
      · next hread =>
        cases h
        exact .here hread
      · next hread => exact .later (by rw [Json.isFlawed, hread]) (ih.mp h)
      · cases h
    · intro h
      cases h with
      | here hread => rw [firstJson?, hread]
      | later hflaw hrest =>
        unfold Json.isFlawed at hflaw
        split at hflaw
        · next hread =>
          rw [firstJson?, hread]
          exact ih.mpr hrest
        · cases hflaw

/-- The first JSON of two lists of texts is that of one of them. -/
theorem FirstJson.of_append {texts more : List Text} (h : FirstJson v (texts ++ more)) :
    FirstJson v texts ∨ FirstJson v more := by
  induction texts with
  | nil => exact .inr h
  | cons t rest ih =>
    cases h with
    | here hread => exact .inl (.here hread)
    | later hflaw hrest =>
      rcases ih hrest with hfirst | hmore
      · exact .inl (.later hflaw hfirst)
      · exact .inr hmore

/-- Further texts do not matter once one is JSON. -/
theorem FirstJson.append {texts : List Text} (h : FirstJson v texts) (more : List Text) :
    FirstJson v (texts ++ more) := by
  induction h with
  | here hread => exact .here hread
  | later hflaw _ ih => exact .later hflaw ih

private theorem places_eq (reply : Text) :
    places reply = blocks reply ++ ((braced? reply).map Text.trim).toList := by
  change ([_, _] ++ [_]).filterMap _ = _
  rw [List.filterMap_append]
  cases braced? reply <;> rfl

/-- What stands between braces begins with one. -/
theorem brace_of_braced? {core : Text} (hcore : braced? reply = some core) :
    ∃ inner, core = '\x7b' :: inner := by
  unfold braced? at hcore
  dsimp only at hcore
  generalize hrest : reply.dropWhile (· != '\x7b') = rest at hcore
  have hstart : (rest.reverse.dropWhile (· != '\x7d')).reverse <+: rest := by
    rw [← List.reverse_suffix, List.reverse_reverse]
    exact List.dropWhile_suffix _
  split at hcore
  · cases hcore
  · next hne =>
    cases hcore
    cases hc : (rest.reverse.dropWhile (· != '\x7d')).reverse with
    | nil => exact absurd (by rw [hc]; rfl) hne
    | cons c inner =>
      rw [hc] at hstart
      obtain ⟨after, rfl⟩ := hstart
      have hfirst := List.head?_dropWhile_not (· != '\x7b') reply
      rw [hrest] at hfirst
      obtain rfl : c = '\x7b' := by simpa using hfirst
      exact ⟨inner, rfl⟩

private theorem isObject_of_braced? {core : Text} (hcore : braced? reply = some core)
    (hread : Json.read (Text.trim core) = .ok v) : v.isObject = true := by
  obtain ⟨inner, hinner⟩ := brace_of_braced? hcore
  obtain ⟨rest, hrest⟩ :=
    Text.exists_trim_cons (c := '\x7b') (Text.isBlank_of_visible (by decide)) inner
  rw [hinner, hrest] at hread
  obtain ⟨fuel, left, hvalue, -⟩ := Json.exists_value_of_read hread
  exact Json.isObject_iff.mpr (Json.object_of_brace hvalue).1

/-- The answer in a reply is no object exactly when the reply strays. -/
theorem extract_not_object_iff :
    (∃ v, extract reply = .ok v ∧ v.isObject = false) ↔ Strays reply := by
  constructor
  · rintro ⟨v, hextract, hv⟩
    obtain ⟨found, hfound, heq⟩ := exists_of_map_eq_ok hextract
    cases found with
    | none =>
      subst heq
      cases hv
    | some w =>
      subst heq
      have hfirst := firstJson?_eq_some_iff.mp hfound
      rw [places_eq, ← List.cons_append] at hfirst
      rcases hfirst.of_append with hblocks | hbraces
      · exact ⟨w, hblocks, hv⟩
      · -- what stands between braces is an object
        cases hcore : braced? reply with
        | none =>
          rw [hcore] at hbraces
          cases hbraces
        | some core =>
          rw [hcore] at hbraces
          cases hbraces with
          | here hread =>
            have hobject : w.isObject = true := isObject_of_braced? hcore hread
            exact absurd hobject (by simpa using hv)
          | later _ hnone => cases hnone
  · rintro ⟨v, hfirst, hv⟩
    have hfound := hfirst.append ((braced? reply).map Text.trim).toList
    rw [List.cons_append, ← places_eq] at hfound
    refine ⟨v, ?_, hv⟩
    rw [extract, firstJson?_eq_some_iff.mpr hfound]
    rfl

end Reply

/-! ### The model's answer -/

namespace Model

/-- An outcome strays if it is a reply that does. -/
def Outcome.Strays (o : Outcome) : Prop := ∃ reply, o = .content (some reply) ∧ Reply.Strays reply

/-- Every outcome leads to an object, unless it strays. -/
theorem Outcome.isObject_answer_iff (o : Outcome) : o.answer.isObject = true ↔ ¬ o.Strays := by
  have hplain {o : Outcome} (hobject : o.answer.isObject = true)
      (ho : ∀ reply, o ≠ .content (some reply)) : o.answer.isObject = true ↔ ¬ o.Strays :=
    iff_of_true hobject fun ⟨reply, hreply, _⟩ ↦ ho reply hreply
  cases o with
  | noChoice => exact hplain rfl fun _ ↦ nofun
  | failed message => exact hplain rfl fun _ ↦ nofun
  | content t =>
    cases t with
    | none => exact hplain rfl fun _ ↦ nofun
    | some reply =>
      have hstrays : Strays (.content (some reply)) ↔ Reply.Strays reply := by
        constructor
        · rintro ⟨_, hreply, h⟩
          cases hreply
          exact h
        · exact fun h ↦ ⟨reply, rfl, h⟩
      rw [hstrays, ← Reply.extract_not_object_iff]
      cases hextract : Reply.extract reply with
      | error e =>
        have hanswer : (Outcome.content (some reply)).answer = apology e.message := by
          simp only [answer, Outcome.reply, answerIn, hextract]
          rfl
        rw [hanswer]
        exact iff_of_true rfl fun ⟨v, hv, _⟩ ↦ nomatch hv
      | ok v =>
        have hanswer : (Outcome.content (some reply)).answer = v := by
          simp only [answer, Outcome.reply, answerIn, hextract]
          rfl
        rw [hanswer]
        constructor
        · rintro hobject ⟨w, hw, hnot⟩
          cases hw
          rw [hobject] at hnot
          cases hnot
        · intro hno
          cases hobject : v.isObject with
          | true => rfl
          | false => exact absurd ⟨v, rfl, hobject⟩ hno

end Model

/-! ### Searches -/

private theorem Clock.exists_timeBefore? {c : Clock} (h : c.dayNumber ≠ 0) (earlier : Nat) :
    ∃ t, c.timeBefore? earlier = some t := by
  unfold timeBefore?
  split
  · exact ⟨_, rfl⟩
  · rw [if_neg (by simpa using h)]
    exact ⟨_, rfl⟩

namespace Search

/-- After the first day there is a made-up answer to every text. -/
theorem exists_offline {c : Clock} (h : c.dayNumber ≠ 0) (query : Text) :
    ∃ result, offline c (.text query) = .ok result := by
  have hsome : ∃ result, offline? c query = some result := by
    unfold offline?
    dsimp only
    split
    · exact ⟨_, rfl⟩
    · split
      · obtain ⟨utc, hutc⟩ := Clock.exists_timeBefore? h 330
        obtain ⟨east, heast⟩ := Clock.exists_timeBefore? h 570
        unfold timeAnswer?
        rw [hutc, heast]
        exact ⟨_, rfl⟩
      · exact ⟨_, rfl⟩
  obtain ⟨result, hresult⟩ := hsome
  refine ⟨result, ?_⟩
  rw [offline, hresult]

/-- After the first day every text is searched for with a result, whatever the web answers. -/
theorem exists_run [Soup] {c : Clock} (h : c.dayNumber ≠ 0) (web : Web) (query : Text) :
    ∃ result, (run web c (.text query)).1 = .ok result := by
  unfold run
  dsimp only
  split
  · exact exists_offline h query
  · split
    · split
      · exact ⟨_, rfl⟩
      · exact exists_offline h query
    · dsimp only
      split
      · exact exists_offline h query
      · exact ⟨_, rfl⟩

end Search

/-! ### The answer to a request -/

namespace Assistant

open Service

variable {request : Text} {d : Desk}

/-- What comes of the questions to the model, the next one being number zero. -/
def Desk.outcome (d : Desk) (n : Nat) : Model.Outcome := d.outcomes.getD n d.otherwise

/-- Work ends with an object that holds the request. -/
def Answers (request : Text) (r : EStateM.Result Fault Desk Json) : Prop :=
  ∃ fields d', r = .ok (.object fields) d' ∧
    Table.get? fields "transcribed_text" = some (.text request)

/-- The desk after the model was asked about a request. -/
def Desk.afterAsking (d : Desk) (request context : Text) : Desk :=
  { d with
    asked := d.asked ++ [Model.question d.settings request context]
    outcomes := d.outcomes.tail }

/-- The desk after a search. -/
def Desk.afterSearching [Soup] (d : Desk) (query : Json) : Desk :=
  { d with requested := d.requested ++ (Search.run d.web d.clock query).2 }

private theorem Desk.outcome_afterAsking (d : Desk) (request context : Text) (n : Nat) :
    (d.afterAsking request context).outcome n = d.outcome (n + 1) := by
  change d.outcomes.tail.getD n d.otherwise = d.outcomes.getD (n + 1) d.otherwise
  cases d.outcomes <;> rfl

private theorem ask_eq (request context : Text) (d : Desk) :
    ask request context d = .ok (d.outcome 0).answer (d.afterAsking request context) := by
  have hnext : d.outcome 0 = d.outcomes.headD d.otherwise := by
    unfold Desk.outcome
    cases d.outcomes <;> rfl
  rw [hnext]
  rfl

private theorem search_eq [Soup] (query : Json) (d : Desk) : search query d =
    ofExcept .search (Search.run d.web d.clock query).1 (d.afterSearching query) := rfl

private theorem exists_wantedQuery? {v : Json} (h : v.isObject = true) :
    ∃ wanted, wantedQuery? v = .ok wanted := by
  obtain ⟨fields, rfl⟩ := Json.isObject_iff.mp h
  exact ⟨_, rfl⟩

private theorem wantedQuery?_of_not_object {v : Json} (h : v.isObject = false) :
    wantedQuery? v = .error (.noMember v.kindName "get") := by
  cases v with
  | object fields => cases h
  | _ => rfl

private theorem answers_withRequest {v : Json} :
    Answers request (ofUse (withRequest request v) d) ↔ v.isObject = true := by
  constructor
  · rintro ⟨fields, d', h, -⟩
    cases v with
    | object _ => rfl
    | _ => cases h
  · intro h
    obtain ⟨fields, rfl⟩ := Json.isObject_iff.mp h
    exact ⟨_, d, rfl, Table.get?_put_self fields _ _⟩

private theorem answerRequest_of_error [Soup] (request context : Text) {misuse : Json.Misuse}
    (h : wantedQuery? (d.outcome 0).answer = .error misuse) :
    answerRequest request context d = .error (.misuse misuse) (d.afterAsking request context) := by
  rw [answerRequest, bind_of_ok (ask_eq request context d), h]
  rfl

private theorem answerRequest_of_none [Soup] (request context : Text)
    (h : wantedQuery? (d.outcome 0).answer = .ok none) :
    answerRequest request context d =
      .ok (d.outcome 0).answer (d.afterAsking request context) := by
  rw [answerRequest, bind_of_ok (ask_eq request context d), h]
  rfl

private theorem answerRequest_of_some [Soup] (request context : Text) {query : Json}
    (h : wantedQuery? (d.outcome 0).answer = .ok (some query)) :
    answerRequest request context d =
      (search query >>= fun result ↦ ask (searchPrompt request query result) context)
        (d.afterAsking request context) := by
  rw [answerRequest, bind_of_ok (ask_eq request context d), h]
  rfl

/-- A request is answered with an object that holds it exactly if the model's first answer is an
object and, where that wants a search, the search succeeds and the model's second answer is one. -/
theorem answers_respond_iff [Soup] (request context : Text) (d : Desk) :
    Answers request (respond request context d) ↔ (d.outcome 0).answer.isObject = true ∧
      ∀ query, wantedQuery? (d.outcome 0).answer = .ok (some query) →
        (∃ result, (Search.run d.web d.clock query).1 = .ok result) ∧
          (d.outcome 1).answer.isObject = true := by
  have hfailed {f : Fault} {d' : Desk} (h : answerRequest request context d = .error f d') :
      ¬ Answers request (respond request context d) := by
    rintro ⟨fields, d'', hok, -⟩
    rw [respond, bind_of_error h] at hok
    cases hok
  have hanswered {v : Json} {d' : Desk} (h : answerRequest request context d = .ok v d') :
      Answers request (respond request context d) ↔ v.isObject = true := by
    rw [respond, bind_of_ok h, answers_withRequest]
  cases hobject : (d.outcome 0).answer.isObject with
  | false =>
    have hno := hfailed (answerRequest_of_error _ _ (wantedQuery?_of_not_object hobject))
    exact iff_of_false hno fun h ↦ Bool.false_ne_true h.1
  | true =>
    obtain ⟨wanted, hwanted⟩ := exists_wantedQuery? hobject
    cases wanted with
    | none =>
      rw [hanswered (answerRequest_of_none _ _ hwanted), hobject, hwanted]
      simp
    | some query =>
      have hagain := answerRequest_of_some request context hwanted
      have hsearch : search query (d.afterAsking request context) =
          ofExcept .search (Search.run d.web d.clock query).1
            ((d.afterAsking request context).afterSearching query) := search_eq query _
      cases hresult : (Search.run d.web d.clock query).1 with
      | error fault =>
        rw [hresult] at hsearch
        rw [bind_of_error hsearch] at hagain
        refine iff_of_false (hfailed hagain) fun h ↦ ?_
        obtain ⟨⟨result, hok⟩, -⟩ := h.2 query hwanted
        rw [hresult] at hok
        cases hok
      | ok result =>
        rw [hresult] at hsearch
        rw [bind_of_ok hsearch, ask_eq] at hagain
        have hsecond : ((d.afterAsking request context).afterSearching query).outcome 0 =
            d.outcome 1 := d.outcome_afterAsking request context 0
        rw [hsecond] at hagain
        rw [hanswered hagain]
        constructor
        · intro h
          refine ⟨rfl, fun other hother ↦ ?_⟩
          rw [hwanted] at hother
          cases hother
          exact ⟨⟨result, hresult⟩, h⟩
        · intro h
          exact (h.2 query hwanted).2

/-- Every outcome of a question ends in a usable answer unless it is a reply that strays
(`process_audio_input`). Asking the model never fails, and its answer is an object exactly if the
reply does not stray. A request that was heard is answered with an object that holds it exactly if
the first reply does not stray and, where it wants a search, the search succeeds and the second reply
does not stray either. A search for a text succeeds at any time after the first day of the first
year. -/
theorem answer_usable_iff [Soup] (request context : Text) (d : Desk) :
    (∃ d', ask request context d = .ok (d.outcome 0).answer d') ∧
    ((d.outcome 0).answer.isObject = true ↔ ¬ (d.outcome 0).Strays) ∧
    (Answers request (respond request context d) ↔ ¬ (d.outcome 0).Strays ∧
      ∀ query, wantedQuery? (d.outcome 0).answer = .ok (some query) →
        (∃ result, (Search.run d.web d.clock query).1 = .ok result) ∧ ¬ (d.outcome 1).Strays) ∧
    (∀ query, d.clock.dayNumber ≠ 0 →
      ∃ result, (Search.run d.web d.clock (.text query)).1 = .ok result) := by
  refine ⟨⟨_, ask_eq request context d⟩, (d.outcome 0).isObject_answer_iff, ?_, ?_⟩
  · rw [answers_respond_iff, Model.Outcome.isObject_answer_iff, Model.Outcome.isObject_answer_iff]
  · exact fun query hday ↦ Search.exists_run hday d.web query

/-- A request to a model that fails is answered, and any text can be searched for. -/
theorem answer_usable_iff_of_failure :
    let d := { Desk.ready with outcomes := [.failed "down".toList] }
    (∃ d', ask "hi" [] d = .ok (Model.apology "down") d') ∧ Answers "hi" (respond "hi" [] d) ∧
      ∃ result, (Search.run d.web d.clock (.text "time")).1 = .ok result := by
  intro d
  obtain ⟨hask, hobject, hanswers, hsearch⟩ := answer_usable_iff "hi".toList [] d
  refine ⟨hask, hanswers.mpr ⟨hobject.mp rfl, ?_⟩, hsearch _ (by decide)⟩
  intro query hquery
  cases hquery

/-- A reply that is a list is taken for an answer, and then the request is not answered. -/
theorem respond_list_reply :
    (Model.Outcome.content (some "[1]".toList)).answer.isObject = false ∧
    ∃ d', respond "hi" [] { Desk.ready with outcomes := [.content (some "[1]".toList)] } =
      .error (.misuse (.noMember "list" "get")) d' := by
  have hobject : (Model.Outcome.content (some "[1]".toList)).answer.isObject = false := by
    decide +kernel
  have hkind : (Model.Outcome.content (some "[1]".toList)).answer.kindName = "list".toList := by
    decide +kernel
  have hwanted := wantedQuery?_of_not_object hobject
  rw [hkind] at hwanted
  exact ⟨hobject, _, bind_of_error (answerRequest_of_error "hi" [] hwanted)⟩

end Assistant

end Deskhand
