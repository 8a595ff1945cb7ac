import Deskhand.Proofs.FormulaTokens
import Deskhand.Proofs.FormulaTree

/-!
# Evaluating the text of a formula

A formula can be written with any blanks between its lexemes. If the text that is evaluated for it can
be told apart, it is evaluated as the expression of the formula, and otherwise it is refused.
-/

namespace Deskhand.Script

/-- A way to write a formula. -/
structure Spelling (f : Formula) where
  spaced : Spaced
  tail : Text
  blanks : Blanks tail spaced
  lexemes_eq : spaced.map Prod.snd = f.lexemes

namespace Spelling

/-- A formula written without blanks. -/
def plain (f : Formula) : Spelling f where
  spaced := f.lexemes.map fun x ↦ ([], x)
  tail := []
  blanks := ⟨by simp, rfl⟩
  lexemes_eq := by
    rw [List.map_map]
    exact List.map_id f.lexemes

variable {f : Formula} {env : Variable → Int} {m : Machine}

/-- The text of a formula. -/
def text (s : Spelling f) : Text := spell Lexeme.source s.tail s.spaced

private theorem alternates (s : Spelling f) : Alternates true (s.spaced.map Prod.snd) := by
  have hend : Alternates true (f.lexemes ++ []) := f.alternates_lexemes rfl
  rw [s.lexemes_eq]
  rwa [List.append_nil] at hend

private theorem flatMap_tokens (s : Spelling f) :
    (s.spaced.flatMap fun p ↦ p.2.tokens env) = f.tokens env := by
  rw [Formula.tokens, ← s.lexemes_eq, List.flatMap_map]

/-- Text that is legible is evaluated as the expression of the formula. -/
theorem evaluate_of_legible (s : Spelling f) (hg : f.Grouped) (hv : Holds m.variables env)
    (hl : isLegible env 0 s.spaced = true) :
    Macro.evaluate s.text m = Macro.ofExcept .expression (f.expr env).eval m := by
  have hshown : ∀ p ∈ s.spaced, ∀ x, p.2 = .var x → (Number.intText? (env x)).isSome = true := by
    intro p hp x hx
    rw [intText?_of_length_le (length_le_of_isLegible hl hp hx)]
    rfl
  have htree : Expr.ofTokens? (s.spaced.flatMap fun p ↦ p.2.tokens env) = some (f.expr env) := by
    rw [s.flatMap_tokens]
    exact hg.ofTokens?
  rw [Macro.evaluate_eq_evaluated, text, substitute_spell hv s.blanks s.alternates hshown,
    Macro.evaluated, expressionText_spell env s.blanks, Evaluator.eval_calculator,
    evaluate_spell s.blanks s.alternates hl htree]

/-- Text that is not legible is refused. -/
theorem evaluate_of_illegible (s : Spelling f) (hv : Holds m.variables env)
    (hl : isLegible env 0 s.spaced = false) :
    ∃ e, Macro.evaluate s.text m = .error (.failed (.expression e)) m := by
  by_cases hshown : ∀ p ∈ s.spaced, ∀ x, p.2 = .var x → (Number.intText? (env x)).isSome = true
  · refine ⟨.malformed, ?_⟩
    rw [Macro.evaluate_eq_evaluated, text, substitute_spell hv s.blanks s.alternates hshown,
      Macro.evaluated, expressionText_spell env s.blanks, Evaluator.eval_calculator,
      evaluate_spell_of_illegible s.blanks s.alternates hl]
    rfl
  · refine ⟨.tooManyDigits, ?_⟩
    push Not at hshown
    obtain ⟨p, hp, x, hx, hhidden⟩ := hshown
    rw [Macro.evaluate_eq_evaluated, text, substitute_spell_of_hidden hv s.blanks s.alternates hp hx
      (by simpa using hhidden)]
    rfl

end Spelling

end Deskhand.Script
