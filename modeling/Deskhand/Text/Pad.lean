import Deskhand.Text.Basic

/-!
# Padding

Texts brought to a width by blanks. A text that is wider stays as it is.
-/

namespace Deskhand.Text

/-- The text with blanks after it. -/
def padEnd (width : Nat) (t : Text) : Text := t ++ List.replicate (width - t.length) ' '

/-- The text with blanks before it. -/
def padStart (width : Nat) (t : Text) : Text := List.replicate (width - t.length) ' ' ++ t

@[simp]
theorem length_padEnd (width : Nat) (t : Text) : (padEnd width t).length = max width t.length := by
  simp only [padEnd, List.length_append, List.length_replicate]
  omega

@[simp]
theorem length_padStart (width : Nat) (t : Text) :
    (padStart width t).length = max width t.length := by
  simp only [padStart, List.length_append, List.length_replicate]
  omega

end Deskhand.Text
