import Deskhand.Text.Basic

/-!
# Tables in order of entry

A table from texts to values that keeps the order in which its keys were first entered. Entering a
key again replaces its value where it stands.
-/

namespace Deskhand

/-- A table from texts to values. -/
abbrev Table (α : Type) := List (Text × α)

namespace Table

variable {α : Type}

/-- The value of a key. -/
def get? (t : Table α) (key : Text) : Option α := t.lookup key

/-- The table with a key set to a value. -/
def put (t : Table α) (key : Text) (value : α) : Table α :=
  match t with
  | [] => [(key, value)]
  | (k, v) :: rest => if k == key then (k, value) :: rest else (k, v) :: put rest key value

/-- Whether a key is in the table. -/
def hasKey (t : Table α) (key : Text) : Bool := (t.get? key).isSome

/-- The keys, in order of entry. -/
def keys (t : Table α) : List Text := t.map Prod.fst

/-- The table without a key. -/
def erase (t : Table α) (key : Text) : Table α := t.filter fun entry ↦ entry.1 != key

/-- Looking up the key just set gives its value. -/
@[simp]
theorem get?_put_self (t : Table α) (key : Text) (value : α) :
    (t.put key value).get? key = some value := by
  induction t with
  | nil => simp [put, get?]
  | cons entry rest ih =>
    obtain ⟨k, v⟩ := entry
    by_cases h : k = key
    · subst h; simp [put, get?]
    · have h' : (key == k) = false := by simpa using fun e ↦ h e.symm
      simp only [get?] at ih
      simp [put, get?, List.lookup_cons, h, h', ih]

/-- Setting a key leaves every other key as it was. -/
theorem get?_put_of_ne (t : Table α) {key other : Text} (value : α) (h : other ≠ key) :
    (t.put key value).get? other = t.get? other := by
  induction t with
  | nil =>
    have h' : (other == key) = false := by simpa using h
    simp [put, get?, List.lookup_cons, h']
  | cons entry rest ih =>
    obtain ⟨k, v⟩ := entry
    simp only [get?] at ih
    by_cases hk : k = key
    · subst hk
      have h' : (other == k) = false := by simpa using h
      simp [put, get?, List.lookup_cons, h']
    · simp only [put, beq_iff_eq, hk, if_false, get?, List.lookup_cons]
      split <;> simp_all

end Table

end Deskhand
