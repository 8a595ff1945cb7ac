import Deskhand.Proofs.Formula
import Deskhand.Proofs.IntegerText

/-!
# The text of a formula

A formula is written with blanks between its lexemes or without. The text that is evaluated for it has
the digits of every variable in place of its name.
-/

namespace Deskhand.Script

/-- Lexemes, each with the blanks in front of it. -/
abbrev Spaced := List (Text × Lexeme)

/-- Lexemes written one after the other, each with the blanks in front of it, and the blanks at the
end. -/
def spell (write : Lexeme → Text) (tail : Text) : Spaced → Text
  | [] => tail
  | (gap, x) :: xs => gap ++ (write x ++ spell write tail xs)

/-- Whether a character is a blank between lexemes. -/
def isGap (c : Char) : Bool := c == ' ' || c == '\t'

/-- Only blanks stand between the lexemes and at the end. -/
structure Blanks (tail : Text) (xs : Spaced) : Prop where
  gaps : ∀ p ∈ xs, p.1.all isGap = true
  tail : tail.all isGap = true

/-- The blanks of the rest are blanks. -/
theorem Blanks.rest {tail : Text} {p : Text × Lexeme} {xs : Spaced} (h : Blanks tail (p :: xs)) :
    Blanks tail xs :=
  ⟨fun q hq ↦ h.gaps q (List.mem_cons_of_mem p hq), h.tail⟩

/-- Without the blanks in front, the blanks are blanks. -/
theorem Blanks.drop_gap {tail gap : Text} {x : Lexeme} {xs : Spaced}
    (h : Blanks tail ((gap, x) :: xs)) : Blanks tail (([], x) :: xs) := by
  refine ⟨?_, h.tail⟩
  intro p hp
  rcases List.mem_cons.1 hp with rfl | hp
  · rfl
  · exact h.gaps p (List.mem_cons_of_mem _ hp)

namespace Lexeme

/-- A lexeme as it is written, given how its variables and operators are. -/
def write (varText : Variable → Text) (opText : Operator → Text) : Lexeme → Text
  | .number n => Text.ofNat n
  | .var x => varText x
  | .opening => ['(']
  | .closing => [')']
  | .operator op => opText op

/-- A lexeme as a script writes it. -/
def source : Lexeme → Text := write Variable.name Operator.text

/-- A lexeme as it is evaluated. -/
def pasted (env : Variable → Int) : Lexeme → Text :=
  write (fun x ↦ Text.ofInt (env x)) Operator.evaluated

/-- The tokens of a lexeme. -/
def tokens (env : Variable → Int) : Lexeme → List Token
  | .number n => [.int n]
  | .var x => if env x < 0 then [.sign "-", .int (env x).natAbs] else [.int (env x).natAbs]
  | .opening => [.sign "("]
  | .closing => [.sign ")"]
  | .operator op => [op.token]

end Lexeme

/-! ### From the script to the text that is evaluated -/

/-- Replacing a part that some lexemes are, and of which the others lack the first character, replaces
those lexemes. -/
theorem replaceAll_spell {c : Char} {old new tail : Text} {xs : Spaced}
    {before after : Lexeme → Text} (hc : isGap c = false) (hb : Blanks tail xs)
    (h : ∀ p ∈ xs, before p.2 = c :: old ∧ after p.2 = new ∨ c ∉ before p.2 ∧ after p.2 = before p.2) :
    Text.replaceAll (spell before tail xs) (c :: old) new = spell after tail xs := by
  have hgap : ∀ t : Text, t.all isGap = true → c ∉ t := by
    intro t ht hm
    rw [List.all_eq_true.1 ht c hm] at hc
    cases hc
  rw [Text.replaceAll_of_ne_nil (List.cons_ne_nil c old)]
  induction xs with
  | nil =>
    have hleft := Text.replaceAll_of_not_mem (hgap tail hb.tail) old new
    rwa [Text.replaceAll_of_ne_nil (List.cons_ne_nil c old)] at hleft
  | cons p xs ih =>
    have hrest := ih hb.rest fun q hq ↦ h q (List.mem_cons_of_mem p hq)
    rw [spell, spell, Text.replaceFrom_append_of_not_mem (hgap _ (hb.gaps p List.mem_cons_self))]
    rcases h p List.mem_cons_self with ⟨hbefore, hafter⟩ | ⟨hfree, hafter⟩
    · rw [hbefore, hafter, Text.replaceFrom_self_append (List.cons_ne_nil c old), hrest]
    · rw [hafter, Text.replaceFrom_append_of_not_mem hfree, hrest]

/-- The sign of one operator is replaced, if no other lexeme has its first character. -/
theorem replaceAll_operator {c : Char} {old new tail : Text} {xs : Spaced}
    {before : Operator → Text} (env : Variable → Int) (op : Operator)
    (hc : isGap c = false ∧ c.isDigit = false ∧ c ≠ '-' ∧ c ≠ '(' ∧ c ≠ ')') (hb : Blanks tail xs)
    (hop : before op = c :: old) (hother : ∀ o, o ≠ op → c ∉ before o) :
    Text.replaceAll (spell (Lexeme.write (fun x ↦ Text.ofInt (env x)) before) tail xs)
        (c :: old) new =
      spell (Lexeme.write (fun x ↦ Text.ofInt (env x)) fun o ↦ if o = op then new else before o)
        tail xs := by
  obtain ⟨hgap, hdigit, hminus, hopen, hclose⟩ := hc
  apply replaceAll_spell hgap hb
  rintro ⟨gap, x⟩ -
  cases x with
  | number n => exact .inr ⟨fun hm ↦ ne_of_isDigit (isDigit_of_mem_ofNat hm) hdigit rfl, rfl⟩
  | var x => exact .inr ⟨not_mem_ofInt hdigit hminus, rfl⟩
  | opening => exact .inr ⟨by simpa [Lexeme.write] using hopen, rfl⟩
  | closing => exact .inr ⟨by simpa [Lexeme.write] using hclose, rfl⟩
  | operator o =>
    by_cases ho : o = op
    · exact .inl ⟨by rw [ho]; exact hop, if_pos ho⟩
    · exact .inr ⟨hother o ho, if_neg ho⟩

/-- The text that is evaluated has the operators written out. -/
theorem expressionText_spell {tail : Text} {xs : Spaced} (env : Variable → Int)
    (hb : Blanks tail xs) :
    Macro.expressionText
        (spell (Lexeme.write (fun x ↦ Text.ofInt (env x)) Operator.text) tail xs) =
      spell (Lexeme.pasted env) tail xs := by
  unfold Macro.expressionText
  dsimp only
  rw [show "^".toList = ['^'] from rfl, show "&&".toList = ['&', '&'] from rfl,
    show "||".toList = ['|', '|'] from rfl,
    replaceAll_operator env .pow (by decide) hb rfl (by intro o; cases o <;> decide),
    replaceAll_operator env .and (by decide) hb rfl (by intro o; cases o <;> decide),
    replaceAll_operator env .or (by decide) hb rfl (by intro o; cases o <;> decide)]
  congr 2
  funext o
  cases o <;> rfl

/-! ### Variables -/

/-- The variables are integers, and those that are not declared count as zero. -/
def Holds (values : Table Value) (env : Variable → Int) : Prop :=
  ∀ x : Variable, values.get? x.name = some (.int (env x)) ∨ values.get? x.name = none ∧ env x = 0

/-- The integers of a table, zero for a name it does not have. -/
def integersOf (values : Table Value) (x : Variable) : Int :=
  ((values.get? x.name).bind Value.int?).getD 0

/-- A table of integers holds its integers. -/
theorem holds_integersOf {values : Table Value} (h : ∀ p ∈ values, ∃ n, p.2 = .int n) :
    Holds values (integersOf values) := by
  intro x
  cases hx : values.get? x.name with
  | none => exact .inr ⟨rfl, by rw [integersOf, hx]; rfl⟩
  | some v =>
    obtain ⟨before, after, he, -⟩ := List.lookup_eq_some_iff.1 hx
    obtain ⟨n, rfl⟩ : ∃ n, v = .int n := h (x.name, v) (by simp [he])
    exact .inl (by rw [integersOf, hx]; rfl)

/-- A table of natural numbers holds them. -/
theorem holds_of_natural {values : Table Value} (h : ∀ p ∈ values, ∃ n : Nat, p.2 = .int n) :
    Holds values (integersOf values) := by
  apply holds_integersOf
  intro p hp
  obtain ⟨n, hn⟩ := h p hp
  exact ⟨n, hn⟩

/-- The integers of a table of natural numbers are not negative. -/
theorem integersOf_nonneg {values : Table Value} (h : ∀ p ∈ values, ∃ n : Nat, p.2 = .int n)
    (x : Variable) : 0 ≤ integersOf values x := by
  rw [integersOf]
  cases hx : values.get? x.name with
  | none => exact Int.le_refl 0
  | some v =>
    obtain ⟨before, after, he, -⟩ := List.lookup_eq_some_iff.1 hx
    obtain ⟨n, rfl⟩ : ∃ n : Nat, v = .int n := h (x.name, v) (by simp [he])
    exact Int.natCast_nonneg n

/-- What follows is none of the word characters. -/
def EndsWord (t : Text) : Prop := ∀ c ∈ t.head?, Text.isWord c = false

namespace Macro

variable {values : Table Value}

private theorem substitute_append_of_isWord {w : Text} (h : ∀ c ∈ w, Text.isWord c = true)
    (u t : Text) :
    substitute values (some u) (w ++ t) = substitute values (some (w.reverse ++ u)) t := by
  induction w generalizing u with
  | nil => rfl
  | cons c w ih =>
    rw [List.cons_append, substitute, if_pos (h c List.mem_cons_self),
      ih fun d hd ↦ h d (List.mem_cons_of_mem c hd)]
    simp

/-- A name that ends is replaced by its value. -/
theorem substitute_some_of_endsWord {w t : Text} (hw : w ≠ []) (ht : EndsWord t) :
    substitute values (some w) t = (substitute.value values w.reverse).bind fun shown ↦
      (substitute values none t).map (shown ++ ·) := by
  cases t with
  | nil =>
    cases w with
    | nil => exact absurd rfl hw
    | cons c w =>
      rw [substitute, substitute]
      · cases substitute.value values (c :: w).reverse <;> simp
      · simp
  | cons c t =>
    have hc : ¬ Text.isWord c = true := by simp [ht c rfl]
    rw [substitute_of_not_isWord hc, if_neg (by simpa using hw), substitute]
    refine congrArg _ (funext fun shown ↦ ?_)
    cases (if c == '$' then substitute values (some []) t
      else (substitute values none t).map (c :: ·)) <;> rfl

/-- The value of a variable is put in as the digits of an integer. -/
theorem substitute_variable {env : Variable → Int} (h : Holds values env) (x : Variable) {t : Text}
    (ht : EndsWord t) :
    substitute values none (x.name ++ t) = (Number.intText? (env x)).bind fun shown ↦
      (substitute values none t).map (shown ++ ·) := by
  obtain ⟨w, hname, hw, hword⟩ := x.isName
  have hvalue : substitute.value values w = Number.intText? (env x) := by
    rw [substitute.value, ← hname]
    rcases h x with hx | ⟨hx, hzero⟩
    · rw [hx]
      rfl
    · rw [hx, hzero]
      decide +kernel
  have hrun : substitute values (some []) (w ++ t) = substitute values (some (w.reverse ++ [])) t :=
    substitute_append_of_isWord hword [] t
  rw [List.append_nil] at hrun
  rw [hname, List.cons_append, substitute, if_pos (beq_self_eq_true '$'), hrun,
    substitute_some_of_endsWord (by simpa using hw) ht, List.reverse_reverse, hvalue]

end Macro

/-- A property of blanks and of the first character of the first lexeme, if no blank is in front of
it, holds of the first character of the text. -/
theorem head?_spell {write : Lexeme → Text} {tail : Text} {xs : Spaced} {P : Char → Prop}
    (hb : Blanks tail xs) (hgap : ∀ c, isGap c = true → P c)
    (hx : ∀ x, ([], x) ∈ xs.head? → write x ≠ [] ∧ ∀ c ∈ (write x).head?, P c) :
    ∀ c ∈ (spell write tail xs).head?, P c := by
  have hblank : ∀ t : Text, t.all isGap = true → ∀ c ∈ t.head?, P c := fun t ht c hc ↦
    hgap c (List.all_eq_true.1 ht c (List.mem_of_mem_head? hc))
  cases xs with
  | nil => exact hblank tail hb.tail
  | cons p xs =>
    obtain ⟨gap, x⟩ := p
    have hg := hblank gap (hb.gaps _ List.mem_cons_self)
    rw [spell]
    cases gap with
    | nil =>
      obtain ⟨hne, hfirst⟩ := hx x rfl
      cases hw : write x with
      | nil => exact absurd hw hne
      | cons d r =>
        intro c hc
        exact hfirst c (by rw [hw]; exact hc)
    | cons d gap => exact hg

/-- After an operand the text goes on with a character that is none of a word. -/
theorem endsWord_spell {tail : Text} {xs : Spaced} (hb : Blanks tail xs)
    (ha : Alternates false (xs.map Prod.snd)) : EndsWord (spell Lexeme.source tail xs) := by
  refine head?_spell hb ?_ ?_
  · intro c hc
    rcases (Bool.or_eq_true _ _).mp hc with h | h
    · rw [beq_iff_eq.mp h]
      decide
    · rw [beq_iff_eq.mp h]
      decide
  · intro x hx
    cases xs with
    | nil => cases hx
    | cons q xs =>
      cases hx
      cases x with
      | number n => cases ha.1
      | var x => cases ha.1
      | opening => cases ha.1
      | closing => exact ⟨List.cons_ne_nil _ _, by rintro c ⟨⟩; decide⟩
      | operator op =>
        cases op <;> exact ⟨List.cons_ne_nil _ _, by rintro c ⟨⟩; decide⟩

/-- What a lexeme is replaced by, if it can be written. -/
def Lexeme.replaced? (env : Variable → Int) : Lexeme → Option Text
  | .var x => Number.intText? (env x)
  | x => some x.source

/-- Lexemes are replaced one by one. -/
theorem substitute_spell_cons {values : Table Value} {env : Variable → Int} (h : Holds values env)
    {tail gap : Text} {x : Lexeme} {xs : Spaced} (hb : Blanks tail ((gap, x) :: xs)) {wanted : Bool}
    (ha : Alternates wanted (x :: xs.map Prod.snd)) :
    Macro.substitute values none (spell Lexeme.source tail ((gap, x) :: xs)) =
      (x.replaced? env).bind fun shown ↦
        (Macro.substitute values none (spell Lexeme.source tail xs)).map fun rest ↦
          gap ++ (shown ++ rest) := by
  have hgap : '$' ∉ gap := by
    intro hm
    have hd := List.all_eq_true.1 (hb.gaps _ List.mem_cons_self) '$' hm
    exact absurd hd (by decide)
  rw [spell, Macro.substitute_append_of_not_mem hgap]
  -- a lexeme that is no variable has no dollar sign
  have hplain : '$' ∉ x.source → x.replaced? env = some x.source →
      (Macro.substitute values none (x.source ++ spell Lexeme.source tail xs)).map (gap ++ ·) =
        (x.replaced? env).bind fun shown ↦
          (Macro.substitute values none (spell Lexeme.source tail xs)).map fun rest ↦
            gap ++ (shown ++ rest) := by
    intro hfree hshown
    rw [Macro.substitute_append_of_not_mem hfree, hshown, Option.map_map]
    rfl
  cases x with
  | number n =>
    exact hplain (fun hm ↦ absurd (isDigit_of_mem_ofNat hm) (by decide)) rfl
  | var x =>
    change (Macro.substitute values none (x.name ++ _)).map _ = (Number.intText? (env x)).bind _
    rw [Macro.substitute_variable h x (endsWord_spell hb.rest ha.2)]
    cases Number.intText? (env x) with
    | none => rfl
    | some shown =>
      rw [Option.bind_some, Option.bind_some, Option.map_map]
      rfl
  | opening => exact hplain (by decide) rfl
  | closing => exact hplain (by decide) rfl
  | operator op => exact hplain (by cases op <;> decide) rfl

/-- If every variable can be written, its digits take its place. -/
theorem substitute_spell {values : Table Value} {env : Variable → Int} (h : Holds values env)
    {tail : Text} {xs : Spaced} (hb : Blanks tail xs) {wanted : Bool}
    (ha : Alternates wanted (xs.map Prod.snd))
    (hshown : ∀ p ∈ xs, ∀ x, p.2 = .var x → (Number.intText? (env x)).isSome = true) :
    Macro.substitute values none (spell Lexeme.source tail xs) =
      some (spell (Lexeme.write (fun x ↦ Text.ofInt (env x)) Operator.text) tail xs) := by
  induction xs generalizing wanted with
  | nil =>
    apply Macro.substitute_of_not_mem
    intro hm
    exact absurd (List.all_eq_true.1 hb.tail '$' hm) (by decide)
  | cons p xs ih =>
    obtain ⟨gap, x⟩ := p
    have hrest := ih hb.rest ha.2 fun q hq ↦ hshown q (List.mem_cons_of_mem _ hq)
    rw [substitute_spell_cons h hb ha, hrest]
    have hx : x.replaced? env =
        some (Lexeme.write (fun x ↦ Text.ofInt (env x)) Operator.text x) := by
      cases x with
      | var x =>
        obtain ⟨t, ht⟩ := Option.isSome_iff_exists.mp (hshown _ List.mem_cons_self x rfl)
        rw [Lexeme.replaced?, ht, (of_intText? ht).1]
        rfl
      | _ => rfl
    rw [hx]
    rfl

/-- If a variable cannot be written, nothing takes the place of the names. -/
theorem substitute_spell_of_hidden {values : Table Value} {env : Variable → Int}
    (h : Holds values env) {tail : Text} {xs : Spaced} (hb : Blanks tail xs) {wanted : Bool}
    (ha : Alternates wanted (xs.map Prod.snd)) {p : Text × Lexeme} {x : Variable} (hp : p ∈ xs)
    (hx : p.2 = .var x) (hhidden : Number.intText? (env x) = none) :
    Macro.substitute values none (spell Lexeme.source tail xs) = none := by
  induction xs generalizing wanted with
  | nil => cases hp
  | cons q xs ih =>
    obtain ⟨gap, y⟩ := q
    rw [substitute_spell_cons h hb ha]
    rcases List.mem_cons.1 hp with rfl | hp
    · rw [show y = .var x from hx, Lexeme.replaced?, hhidden]
      rfl
    · rw [ih hb.rest ha.2 hp]
      cases y.replaced? env <;> rfl

end Deskhand.Script
