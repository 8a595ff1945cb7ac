import Deskhand.Memory.Context
import Mathlib.Data.List.DropRight

/-!
# Recalling conversations

The conversation of a user is a view of the memory that each change of it acts on in one way. It can
be told exactly if the delays in each of its scripts can be. Of the scripts that are stored only one
kind cannot: a list with the bare delay command as an item.
-/

namespace Deskhand

/-- The end of a list's end with more after it is the end of all. -/
theorem rtake_rtake_append {α : Type} (n : Nat) (l more : List α) :
    (l.rtake n ++ more).rtake n = (l ++ more).rtake n := by
  unfold List.rtake
  rw [← List.drop_append_of_le_length (Nat.sub_le ..), List.drop_drop]
  congr 1
  simp only [List.length_drop, List.length_append]
  omega

namespace Memory

variable {m : Memory} {user other : Text} {e : Exchange}

/-- Two memories hold the same conversations. A user who is missing has an empty one. -/
def SameExchanges (m m' : Memory) : Prop := ∀ user, m'.exchanges user = m.exchanges user

/-! ### The conversation of a user -/

/-- A conversation that is entered is there. -/
@[simp]
theorem exchanges_put_self (m : Memory) (user : Text) (l : List Exchange) :
    exchanges (m.put user l) user = l := by
  rw [exchanges, Table.get?_put_self]
  rfl

/-- The conversations of other users stay as they are. -/
theorem exchanges_put_of_ne (m : Memory) (l : List Exchange) (h : other ≠ user) :
    exchanges (m.put user l) other = m.exchanges other := by
  rw [exchanges, Table.get?_put_of_ne m l h]
  rfl

private theorem exchanges_of_not_hasKey (h : ¬ Table.hasKey m user = true) :
    m.exchanges user = [] := by
  rw [Table.hasKey, Option.not_isSome_iff_eq_none] at h
  rw [exchanges, h]
  rfl

/-- A place for a user changes no conversation. -/
theorem sameExchanges_openFor (m : Memory) (user : Text) : m.SameExchanges (m.openFor user) := by
  intro other
  unfold openFor
  split
  · rfl
  · next hkey =>
    by_cases h : other = user
    · rw [h, exchanges_put_self, exchanges_of_not_hasKey hkey]
    · exact exchanges_put_of_ne m [] h

/-- After one more exchange the conversation is the window on it with the exchange. -/
@[simp]
theorem exchanges_add_self (m : Memory) (user : Text) (e : Exchange) :
    (m.add user e).exchanges user = recent (m.exchanges user ++ [e]) := exchanges_put_self ..

/-- One more exchange of a user leaves the other conversations as they are. -/
theorem exchanges_add_of_ne (m : Memory) (e : Exchange) (h : other ≠ user) :
    (m.add user e).exchanges other = m.exchanges other := exchanges_put_of_ne m _ h

/-- One more exchange has the same effect on memories with the same conversations. -/
theorem SameExchanges.add {m' : Memory} (h : m.SameExchanges m') (user : Text) (e : Exchange) :
    (m.add user e).SameExchanges (m'.add user e) := by
  intro other
  by_cases hother : other = user
  · rw [hother, exchanges_add_self, exchanges_add_self, h user]
  · rw [exchanges_add_of_ne _ _ hother, exchanges_add_of_ne _ _ hother, h other]

/-- A conversation that is forgotten is empty. -/
@[simp]
theorem exchanges_forget_self (m : Memory) (user : Text) : (m.forget user).exchanges user = [] := by
  unfold forget
  split
  · exact exchanges_put_self m user []
  · next hkey => exact exchanges_of_not_hasKey hkey

/-- Forgetting leaves the conversations of others as they are. -/
theorem exchanges_forget_of_ne (m : Memory) (h : other ≠ user) :
    (m.forget user).exchanges other = m.exchanges other := by
  unfold forget
  split
  · exact exchanges_put_of_ne m [] h
  · rfl

/-- The window on a window with more after it is the window on all. -/
theorem recent_append (l more : List Exchange) : recent (recent l ++ more) = recent (l ++ more) :=
  rtake_rtake_append window l more

/-- After one more exchange, what is in a conversation was there before or is that exchange. -/
theorem mem_exchanges_add {new : Exchange} (h : e ∈ (m.add user new).exchanges other) :
    e ∈ m.exchanges other ∨ (other = user ∧ e = new) := by
  by_cases hother : other = user
  · rw [hother, exchanges_add_self] at h
    rcases List.mem_append.mp (List.mem_of_mem_drop h) with hold | hnew
    · rw [hother]
      exact .inl hold
    · exact .inr ⟨hother, List.mem_singleton.mp hnew⟩
  · rw [exchanges_add_of_ne _ _ hother] at h
    exact .inl h

/-- The exchange that is added is in the window. -/
theorem mem_exchanges_add_self (m : Memory) (user : Text) (e : Exchange) :
    e ∈ (m.add user e).exchanges user := by
  have hlast : (m.exchanges user ++ [e]).length - window ≤ (m.exchanges user).length := by
    rw [List.length_append, List.length_singleton, window]
    omega
  rw [exchanges_add_self, recent, List.drop_append_of_le_length hlast]
  exact List.mem_append_right _ (List.mem_singleton_self e)

/-- Forgetting adds nothing to a conversation. -/
theorem mem_exchanges_of_forget (h : e ∈ (m.forget user).exchanges other) :
    e ∈ m.exchanges other := by
  by_cases hother : other = user
  · rw [hother, exchanges_forget_self] at h
    cases h
  · rwa [exchanges_forget_of_ne _ hother] at h

end Memory

/-! ### What can be told -/

namespace Exchange

/-- The script of an exchange is a list with the bare delay command as an item. -/
def Poisons (e : Exchange) : Prop := ∃ items, e.script = .list items ∧ .text "DELAY" ∈ items

/-- The script of an exchange is a text or a list, unless it does not count as given. -/
def Storable (e : Exchange) : Prop :=
  e.script.truth = true → (∃ t, e.script = .text t) ∨ ∃ items, e.script = .list items

/-- A script that is a text can be stored, and it does not poison. -/
theorem storable_of_text {e : Exchange} {t : Text} (h : e.script = .text t) :
    e.Storable ∧ ¬ e.Poisons := by
  refine ⟨fun _ ↦ .inl ⟨t, h⟩, ?_⟩
  rintro ⟨items, hlist, -⟩
  rw [h] at hlist
  cases hlist

/-- A text is found in a list exactly if it is an item of it. -/
theorem any_isText_iff {t : Text} {items : List Json} :
    items.any (Json.isText t) = true ↔ .text t ∈ items := by
  rw [List.any_eq_true]
  constructor
  · rintro ⟨v, hv, ht⟩
    cases v with
    | text s =>
      obtain rfl : s = t := beq_iff_eq.mp ht
      exact hv
    | _ => cases ht
  · exact fun h ↦ ⟨_, h, beq_self_eq_true t⟩

/-- A list with the bare delay command cannot be split into lines. -/
theorem delayLines_of_poisons {e : Exchange} (h : e.Poisons) :
    delayLines e.script = .error (.noMember "list" "split") := by
  obtain ⟨items, hscript, hitem⟩ := h
  have htruth : (Json.list items).truth = true := by
    cases items with
    | nil => cases hitem
    | cons _ _ => rfl
  have hincludes : (Json.list items).includes "DELAY" = .ok true :=
    congrArg Except.ok (any_isText_iff.mpr hitem)
  rw [hscript]
  unfold delayLines
  rw [htruth, hincludes]
  rfl

/-- The delays of any other script that is stored are told. -/
theorem exists_delayLines {e : Exchange} (hstorable : e.Storable) (h : ¬ e.Poisons) :
    ∃ lines, delayLines e.script = .ok lines := by
  cases htruth : e.script.truth with
  | false =>
    unfold delayLines
    rw [htruth]
    exact ⟨[], rfl⟩
  | true =>
    obtain ⟨t, hscript⟩ | ⟨items, hscript⟩ := hstorable htruth
    · rw [hscript] at htruth ⊢
      have hincludes : (Json.text t).includes "DELAY" = .ok (Text.has t "DELAY") := rfl
      unfold delayLines
      rw [htruth, hincludes]
      cases Text.has t "DELAY" <;> exact ⟨_, rfl⟩
    · have hitem : ¬ .text "DELAY" ∈ items := fun hitem ↦ h ⟨items, hscript, hitem⟩
      have hincludes : (Json.list items).includes "DELAY" = .ok false :=
        congrArg Except.ok (Bool.eq_false_iff.mpr (mt any_isText_iff.mp hitem))
      rw [hscript] at htruth ⊢
      unfold delayLines
      rw [htruth, hincludes]
      exact ⟨[], rfl⟩

private theorem exists_summary {e : Exchange} {lines : List Text}
    (h : delayLines e.script = .ok lines) (number : Nat) :
    ∃ t, summary number e = .ok t := by
  rw [summary, h]
  exact ⟨_, rfl⟩

/-- Exchanges are told if none of them poisons. -/
theorem exists_summaries {l : List Exchange} (hstorable : ∀ e ∈ l, e.Storable)
    (h : ∀ e ∈ l, ¬ e.Poisons) (number : Nat) : ∃ ts, summaries number l = .ok ts := by
  induction l generalizing number with
  | nil => exact ⟨[], rfl⟩
  | cons e rest ih =>
    rw [List.forall_mem_cons] at hstorable h
    obtain ⟨lines, hlines⟩ := exists_delayLines hstorable.1 h.1
    obtain ⟨t, ht⟩ := exists_summary hlines number
    obtain ⟨ts, hts⟩ := ih hstorable.2 h.2 (number + 1)
    rw [summaries, ht, hts]
    exact ⟨_, rfl⟩

/-- One exchange that poisons keeps all from being told. -/
theorem summaries_of_poisons {l : List Exchange} (hstorable : ∀ e ∈ l, e.Storable)
    (h : ∃ e ∈ l, e.Poisons) (number : Nat) :
    summaries number l = .error (.noMember "list" "split") := by
  induction l generalizing number with
  | nil =>
    obtain ⟨e, he, -⟩ := h
    cases he
  | cons e rest ih =>
    rw [List.forall_mem_cons] at hstorable
    by_cases he : e.Poisons
    · rw [summaries, summary, delayLines_of_poisons he]
      rfl
    · -- the first exchange is told, so the fault is in the rest
      obtain ⟨lines, hlines⟩ := exists_delayLines hstorable.1 he
      obtain ⟨t, ht⟩ := exists_summary hlines number
      have hrest : ∃ e ∈ rest, e.Poisons := by
        obtain ⟨e', he', hpoisons⟩ := h
        rcases List.mem_cons.mp he' with rfl | hmem
        · exact absurd hpoisons he
        · exact ⟨e', hmem, hpoisons⟩
      rw [summaries, ht, ih hstorable.2 hrest]
      rfl

end Exchange

namespace Memory

variable {m : Memory} {user : Text}

/-- The context is told if no exchange of the user poisons. -/
theorem exists_context (hstorable : ∀ e ∈ m.exchanges user, e.Storable)
    (h : ∀ e ∈ m.exchanges user, ¬ e.Poisons) : ∃ t, m.context user = .ok t := by
  unfold context
  split
  · exact ⟨_, rfl⟩
  · obtain ⟨ts, hts⟩ := Exchange.exists_summaries hstorable h 1
    dsimp only
    rw [hts]
    exact ⟨_, rfl⟩

/-- The context is not told if an exchange of the user poisons. -/
theorem context_of_poisons (hstorable : ∀ e ∈ m.exchanges user, e.Storable)
    (h : ∃ e ∈ m.exchanges user, e.Poisons) :
    m.context user = .error (.noMember "list" "split") := by
  unfold context
  split
  · next hnone =>
    obtain ⟨e, he, -⟩ := h
    rw [hnone] at he
    cases he
  · dsimp only
    rw [Exchange.summaries_of_poisons hstorable h]
    rfl

end Memory

end Deskhand
