import Deskhand.Text.Basic

/-!
# Families of failures

Every part of the assistant has its own type of failures, each a cause with the data its message
needs. The families below say what kind of thing went wrong, so that a caller can report it without
knowing the part.
-/

namespace Deskhand

/-- What kind of thing went wrong. -/
inductive Family where
  /-- A text is not a well-formed expression or declaration. -/
  | grammar
  /-- A name stands for nothing. -/
  | name
  /-- An operation does not apply to values of these kinds. -/
  | type
  /-- A value is of the right kind but out of its range. -/
  | value
  /-- A division by zero. -/
  | zeroDivision
  /-- A result is too large. -/
  | overflow
  /-- A position lies outside a sequence. -/
  | index
  /-- A value has no such member. -/
  | member
  /-- An object lacks a field. -/
  | field
  /-- The lines of a script ended too early. -/
  | endOfLines
  /-- A device is not there. -/
  | system
  /-- A number does not fit the field of a report. -/
  | packing
  /-- A service failed. -/
  | service
  /-- What an expression raised, by the name it gives it. -/
  | other (name : Text)
  deriving DecidableEq

end Deskhand
