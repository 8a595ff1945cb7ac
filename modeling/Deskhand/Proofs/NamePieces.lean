import Deskhand.Proofs.RandomBounds
import Mathlib.Data.List.Nodup
import Mathlib.Data.List.TakeDrop
import Mathlib.Data.List.TakeWhile

/-!
# Names in a line

A variable has a name that is a dollar sign and word characters. A line is made of such names, as long
as they can be, and of single characters. An expression has its names replaced by their values all at
once.
-/

namespace Deskhand.Script

/-! ### Names of variables -/

/-- The name of a variable: a dollar sign and at least one word character. -/
structure IsName (n : Text) : Prop where
  split : ∃ w, n = '$' :: w ∧ w ≠ [] ∧ ∀ c ∈ w, Text.isWord c = true

/-- Names of variables, none of them twice. -/
structure WellNamed (names : List Text) : Prop where
  nodup : names.Nodup
  isName : ∀ n ∈ names, IsName n

/-- A dollar sign is no word character. -/
theorem isWord_dollar : Text.isWord '$' = false := by decide

/-- A name has one dollar sign, at its beginning. -/
theorem IsName.dollar_not_mem {u : Text} (h : IsName ('$' :: u)) : '$' ∉ u := by
  obtain ⟨w, hw, -, hword⟩ := h
  cases hw
  intro hm
  have := hword '$' hm
  rw [isWord_dollar] at this
  cases this

/-- A lone dollar sign is no name. -/
theorem IsName.ne_lone {n : Text} (h : IsName n) : n ≠ ['$'] := by
  obtain ⟨w, rfl, hw, -⟩ := h
  simpa using hw

/-- A further name may be added. -/
theorem WellNamed.concat {names : List Text} {name : Text} (h : WellNamed names)
    (hname : IsName name) (hnew : name ∉ names) : WellNamed (names ++ [name]) := by
  constructor
  · rw [← List.concat_eq_append]
    exact h.nodup.concat hnew
  · intro n hn
    rcases List.mem_append.1 hn with hn | hn
    · exact h.isName n hn
    · rw [List.mem_singleton.1 hn]
      exact hname

/-- The names of the bounds are names. -/
theorem wellNamed_bounds : WellNamed [minName, maxName] := by
  have hnone : WellNamed [] := ⟨List.nodup_nil, fun n hn ↦ absurd hn List.not_mem_nil⟩
  have hmin : IsName minName :=
    ⟨"_RANDOM_MIN".toList, rfl, by decide, List.all_eq_true.1 (by decide)⟩
  have hmax : IsName maxName :=
    ⟨"_RANDOM_MAX".toList, rfl, by decide, List.all_eq_true.1 (by decide)⟩
  exact (hnone.concat hmin (by decide)).concat hmax (by decide)

/-! ### The pieces of a line -/

/-- A piece of a line: a character, or a dollar sign with all word characters that follow it. -/
inductive Piece where
  | char (c : Char)
  | name (w : Text)
  deriving DecidableEq

/-- The pieces of a text; `name` holds the characters since a dollar sign, in reverse. -/
def piecesFrom (name : Option Text) : Text → List Piece
  | [] =>
    match name with
    | none => []
    | some w => [.name w.reverse]
  | c :: rest =>
    match name with
    | none => if c == '$' then piecesFrom (some []) rest else .char c :: piecesFrom none rest
    | some w =>
      if Text.isWord c then piecesFrom (some (c :: w)) rest
      else
        .name w.reverse ::
          if c == '$' then piecesFrom (some []) rest else .char c :: piecesFrom none rest

/-- The pieces of a line. -/
def pieces (line : Text) : List Piece := piecesFrom none line

/-- Whether a piece that is a name is one of the given names. -/
def Piece.isDeclared (names : List Text) : Piece → Bool
  | .char _ => true
  | .name w => w.isEmpty || decide ('$' :: w ∈ names)

/-- The pieces are as long as they can be: no word character follows a name, and every dollar sign
begins one. -/
def Split : List Piece → Prop
  | [] => True
  | .char c :: ps => c ≠ '$' ∧ Split ps
  | .name w :: ps =>
    (∀ c ∈ w, Text.isWord c = true) ∧ (∀ c, ps.head? = some (.char c) → Text.isWord c = false) ∧
      Split ps

private theorem head?_piecesFrom (w t : Text) : ∃ w',
    (piecesFrom (some w) t).head? = some (.name w') := by
  induction t generalizing w with
  | nil => exact ⟨w.reverse, rfl⟩
  | cons c rest ih =>
    rw [piecesFrom]
    split
    · exact ih (c :: w)
    · exact ⟨w.reverse, rfl⟩

/-- The pieces of a text are as long as they can be. -/
theorem split_piecesFrom (name : Option Text) (t : Text)
    (hname : ∀ w ∈ name, ∀ c ∈ w, Text.isWord c = true) : Split (piecesFrom name t) := by
  induction t generalizing name with
  | nil =>
    cases name with
    | none => trivial
    | some w => exact ⟨by simpa using hname w rfl, by simp, trivial⟩
  | cons c rest ih =>
    have hdollar : Split (piecesFrom (some []) rest) := ih (some []) (by simp)
    have hplain : Split (piecesFrom none rest) := ih none (by simp)
    cases name with
    | none =>
      rw [piecesFrom]
      split
      · exact hdollar
      · next hc => exact ⟨by simpa using hc, hplain⟩
    | some w =>
      have hw := hname w rfl
      rw [piecesFrom]
      split
      · next hc =>
        apply ih (some (c :: w))
        simpa [hc] using hw
      · next hc =>
        refine ⟨by simpa using hw, ?_, ?_⟩
        · intro d hd
          split at hd
          · obtain ⟨w', hw'⟩ := head?_piecesFrom [] rest
            rw [hw'] at hd
            cases hd
          · cases hd
            simpa using hc
        · split
          · exact hdollar
          · next hc => exact ⟨by simpa using hc, hplain⟩

/-- A piece in which the names that are `done` are replaced by their texts. -/
def Piece.filled (texts : Text → Text) (done : List Text) : Piece → Text
  | .char c => [c]
  | .name w => if '$' :: w ∈ done then texts ('$' :: w) else '$' :: w

/-- Pieces in which the names that are `done` are replaced by their texts. -/
def filled (texts : Text → Text) (done : List Text) (ps : List Piece) : Text :=
  ps.flatMap (Piece.filled texts done)

/-- Pieces one after the other are filled one after the other. -/
@[simp]
theorem filled_cons (texts : Text → Text) (done : List Text) (p : Piece) (ps : List Piece) :
    filled texts done (p :: ps) = p.filled texts done ++ filled texts done ps := List.flatMap_cons

/-- Where nothing is replaced, the pieces make up the text. -/
theorem filled_piecesFrom (texts : Text → Text) (name : Option Text) (t : Text) :
    filled texts [] (piecesFrom name t) = Macro.pending name ++ t := by
  induction t generalizing name with
  | nil =>
    cases name with
    | none => rfl
    | some w => simp [piecesFrom, filled, Piece.filled, Macro.pending]
  | cons c rest ih =>
    have hnext : filled texts []
        (if c == '$' then piecesFrom (some []) rest else .char c :: piecesFrom none rest) =
          c :: rest := by
      split
      · next hc =>
        rw [ih, beq_iff_eq.1 hc]
        rfl
      · rw [filled_cons, ih]
        rfl
    cases name with
    | none =>
      rw [piecesFrom]
      exact hnext
    | some w =>
      rw [piecesFrom]
      split
      · rw [ih]
        simp [Macro.pending]
      · rw [filled_cons, hnext]
        simp [Piece.filled, Macro.pending]

/-- A name ends at a character that is no word character. -/
theorem substitute_of_not_isWord {c : Char} (hc : ¬ Text.isWord c = true) (values : Table Value)
    (w rest : Text) :
    Macro.substitute values (some w) (c :: rest) =
      (if w.isEmpty then some ['$'] else Macro.substitute.value values w.reverse).bind fun shown ↦
        (if c == '$' then Macro.substitute values (some []) rest
          else (Macro.substitute values none rest).map (c :: ·)).bind fun tail ↦
            some (shown ++ tail) := by
  rw [Macro.substitute, if_neg hc]
  split
  · split <;> rfl
  · split <;> rfl

/-- An expression gets the texts of its names, all at once. -/
theorem substitute_eq_filled {values : Table Value} {texts : Text → Text} {done : List Text}
    {name : Option Text} {t : Text} (hbare : ['$'] ∉ done)
    (h : ∀ w, .name w ∈ piecesFrom name t → w ≠ [] → '$' :: w ∈ done ∧
      Macro.substitute.value values w = some (texts ('$' :: w))) :
    Macro.substitute values name t = some (filled texts done (piecesFrom name t)) := by
  induction t generalizing name with
  | nil =>
    cases name with
    | none => rfl
    | some w =>
      cases w with
      | nil => simp [Macro.substitute, piecesFrom, filled, Piece.filled, hbare]
      | cons c w =>
        have hw := h (c :: w).reverse (by simp [piecesFrom]) (by simp)
        rw [Macro.substitute, hw.2, piecesFrom, filled_cons, Piece.filled, if_pos hw.1]
        · simp [filled]
        · simp
  | cons c rest ih =>
    -- what follows the current name
    have hnext : (∀ w, .name w ∈ (if c == '$' then piecesFrom (some []) rest
          else .char c :: piecesFrom none rest) → w ≠ [] → '$' :: w ∈ done ∧
            Macro.substitute.value values w = some (texts ('$' :: w))) →
        (if c == '$' then Macro.substitute values (some []) rest
          else (Macro.substitute values none rest).map (c :: ·)) =
            some (filled texts done (if c == '$' then piecesFrom (some []) rest
              else .char c :: piecesFrom none rest)) := by
      intro h
      split
      · next hc =>
        rw [if_pos hc] at h
        exact ih h
      · next hc =>
        rw [if_neg hc] at h
        rw [ih fun w hw ↦ h w (List.mem_cons_of_mem _ hw), filled_cons]
        rfl
    cases name with
    | none =>
      rw [piecesFrom] at h ⊢
      rw [Macro.substitute]
      exact hnext h
    | some w =>
      rw [piecesFrom] at h ⊢
      by_cases hc : Text.isWord c = true
      · rw [if_pos hc] at h ⊢
        rw [Macro.substitute, if_pos hc]
        exact ih h
      · rw [if_neg hc] at h ⊢
        rw [substitute_of_not_isWord hc, hnext fun w hw ↦ h w (List.mem_cons_of_mem _ hw),
          filled_cons]
        have hshown : (if w.isEmpty then some ['$'] else Macro.substitute.value values w.reverse) =
            some (Piece.filled texts done (.name w.reverse)) := by
          by_cases hw : w = []
          · simp [hw, Piece.filled, hbare]
          · have hv := h w.reverse List.mem_cons_self (by simpa using hw)
            simp [hw, Piece.filled, hv]
        rw [hshown]
        rfl

end Deskhand.Script
