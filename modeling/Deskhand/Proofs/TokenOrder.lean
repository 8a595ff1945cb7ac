import Deskhand.Script.Expr
import Mathlib.Data.List.Chain

/-!
# Which tokens stand next to each other

In an expression that can be read, a number or a closing bracket is followed by a sign or by one of
the words that join expressions, never by another word.
-/

namespace Deskhand.Script

namespace Token

/-- The words that join expressions. -/
def joinWords : List Text :=
  [['a', 'n', 'd'], ['o', 'r'], ['n', 'o', 't'], ['i', 'n'], ['i', 's'], ['i', 'f'],
    ['e', 'l', 's', 'e']]

/-- Whether a token may stand after an operand: it is no word, or one that joins. -/
def joins : Token → Bool
  | .name w => joinWords.contains w
  | _ => true

/-- Whether a token is a number or a closing bracket. -/
def closes : Token → Bool
  | .int _ => true
  | .sign s => s == ")"
  | _ => false

/-- The second token may stand right after the first one. -/
def MayFollow (x y : Token) : Prop := x.closes = true → y.joins = true

end Token

open Token

/-- Up to the rest, the tokens stand next to each other as they may. -/
def Orderly (tokens rest : List Token) : Prop :=
  ∃ used, tokens = used ++ rest ∧ used.IsChain MayFollow

/-- Up to the rest, the tokens stand next to each other as they may, also right after an operand. -/
def Continues (tokens rest : List Token) : Prop :=
  ∃ used, tokens = used ++ rest ∧ used.IsChain MayFollow ∧ ∀ y ∈ used.head?, y.joins = true

section Steps

variable {a b c : List Token} {t : Token}

/-- Nothing needs to be used. -/
theorem Continues.refl (a : List Token) : Continues a a := ⟨[], rfl, .nil, by simp⟩

/-- One token stands next to nothing. -/
theorem Orderly.single (t : Token) (a : List Token) : Orderly (t :: a) a := ⟨[t], rfl, .singleton t⟩

/-- What continues after an operand goes on. -/
theorem Orderly.trans (h : Orderly a b) (h' : Continues b c) : Orderly a c := by
  obtain ⟨u, rfl, hu⟩ := h
  obtain ⟨v, rfl, hv, hhead⟩ := h'
  refine ⟨u ++ v, by simp, hu.append hv ?_⟩
  intro x _ y hy _
  exact hhead y hy

/-- What continues goes on. -/
theorem Continues.trans (h : Continues a b) (h' : Continues b c) : Continues a c := by
  obtain ⟨u, rfl, hu, hfirst⟩ := h
  obtain ⟨v, rfl, hv, hhead⟩ := h'
  refine ⟨u ++ v, by simp, hu.append hv ?_, ?_⟩
  · intro x _ y hy _
    exact hhead y hy
  · cases u with
    | nil => exact hhead
    | cons x u => exact hfirst

/-- After a token that is no operand anything may stand. -/
theorem Orderly.cons (ht : t.closes = false) (h : Orderly a b) : Orderly (t :: a) b := by
  obtain ⟨u, rfl, hu⟩ := h
  refine ⟨t :: u, rfl, List.isChain_cons.2 ⟨?_, hu⟩⟩
  intro y _ hc
  rw [ht] at hc
  cases hc

/-- A token that joins goes on after an operand. -/
theorem Orderly.continues (hj : t.joins = true) (ht : t.closes = false) (h : Orderly a b) :
    Continues (t :: a) b := by
  obtain ⟨u, hu, hchain⟩ := h.cons ht
  cases u with
  | nil => exact ⟨[], hu, .nil, by simp⟩
  | cons x u =>
    obtain ⟨rfl, -⟩ := List.cons.inj hu
    refine ⟨t :: u, hu, hchain, ?_⟩
    rintro y ⟨⟩
    exact hj

/-- A token that joins may close what was read. -/
theorem Orderly.close (h : Orderly a (t :: b)) (hj : t.joins = true) : Orderly a b := by
  obtain ⟨u, rfl, hu⟩ := h
  refine ⟨u ++ [t], by simp, hu.append (.singleton t) ?_⟩
  rintro x _ y ⟨⟩ _
  exact hj

/-- Two expressions may stand around a token that joins. -/
theorem Orderly.around (h : Orderly a (t :: b)) (hj : t.joins = true) (ht : t.closes = false)
    (h' : Orderly b c) : Orderly a c := by
  obtain ⟨u, rfl, hu⟩ := h
  have hempty : Orderly (u ++ t :: b) (t :: b) := ⟨u, rfl, hu⟩
  exact hempty.trans (h'.continues hj ht)

end Steps

namespace Expr

private theorem joins_of_isWord {t : Token} {w : String} (hw : joinWords.contains w.toList = true)
    (h : isWord t w = true) : t.joins = true ∧ t.closes = false := by
  cases t with
  | name n =>
    have hn : n = w.toList := by simpa [isWord] using h
    exact ⟨by rw [joins, hn]; exact hw, rfl⟩
  | _ => cases h

private theorem joins_of_isSign {t : Token} {s : String} (h : isSign t s = true) :
    t.joins = true := by
  cases t with
  | sign s' => rfl
  | _ => cases h

private theorem closes_of_isSign {t : Token} {s : String} (hs : (s == ")") = false) (h :
    isSign t s = true) :
    t.closes = false := by
  cases t with
  | sign s' =>
    have hn : s' = s := by simpa [isSign] using h
    rw [closes, hn]
    exact hs
  | _ => cases h

private theorem joins_of_mem {w : Text} (h : joinWords.contains w = true) :
    (Token.name w).joins = true ∧ (Token.name w).closes = false := ⟨h, rfl⟩

/-- An operator joins and is no operand. -/
theorem joins_of_joiner? {level : Level} {t : Token} {join : Expr → Expr → Expr}
    (h : joiner? level t = some join) : t.joins = true ∧ t.closes = false := by
  have hword : ∀ {w word : Text} {f : Expr → Expr → Expr}, joinWords.contains word = true →
      (if w == word then some f else none) = some join →
        (Token.name w).joins = true ∧ (Token.name w).closes = false := by
    intro w word f hword h
    by_cases hw : (w == word) = true
    · rw [beq_iff_eq.mp hw]
      exact joins_of_mem hword
    · rw [if_neg hw] at h
      cases h
  unfold joiner? at h
  split at h
  all_goals first
    | exact ⟨rfl, rfl⟩
    | cases h
    | exact hword (by decide) h

/-- After a comparison an expression goes on. -/
theorem continues_of_comparison? {ts rest c : List Token} {op : CompareOp}
    (h : comparison? ts = some (op, rest)) (hc : Orderly rest c) : Continues ts c := by
  unfold comparison? at h
  split at h
  · next s rest' =>
    have hs : (Token.sign s).closes = false ∧ rest' = rest := by
      split at h
      all_goals first
        | exact ⟨rfl, (Prod.mk.inj (Option.some.inj h)).2⟩
        | cases h
    rw [hs.2]
    exact hc.continues rfl hs.1
  · next w rest' =>
    -- one word, or two of which the second is looked for
    have hone : joinWords.contains w = true → rest' = rest → Continues (.name w :: rest') c := by
      rintro hw rfl
      exact hc.continues hw rfl
    have htwo : ∀ {t : Token} {second : String} {more : List Token},
        joinWords.contains w = true → joinWords.contains second.toList = true →
        isWord t second = true → more = rest → Continues (.name w :: t :: more) c := by
      rintro t second more hw hsecond ht rfl
      exact (hc.cons (joins_of_isWord hsecond ht).2).continues hw rfl
    have hmem : ∀ {word : Text}, joinWords.contains word = true → (w == word) = true →
        joinWords.contains w = true := by
      intro word hword hw
      rw [beq_iff_eq.mp hw]
      exact hword
    split at h
    · next hw => exact hone (hmem (by decide) hw) (Prod.mk.inj (Option.some.inj h)).2
    · split at h
      · next hw =>
        split at h
        · split at h
          · next ht =>
            exact htwo (hmem (by decide) hw) (by decide) ht (Prod.mk.inj (Option.some.inj h)).2
          · cases h
        · cases h
      · split at h
        · next hw =>
          split at h
          · split at h
            · next ht =>
              exact htwo (hmem (by decide) hw) (by decide) ht (Prod.mk.inj (Option.some.inj h)).2
            · exact hone (hmem (by decide) hw) (Prod.mk.inj (Option.some.inj h)).2
          · exact hone (hmem (by decide) hw) (Prod.mk.inj (Option.some.inj h)).2
        · cases h
  · cases h

private theorem closes_of_unary? {t : Token} {op : UnaryOp} (h : unary? t = some op) :
    t.closes = false := by
  unfold unary? at h
  split at h
  all_goals first
    | rfl
    | cases h

private theorem continues_joinTexts (t : Text) (ts : List Token) :
    Continues ts (joinTexts t ts).2 := by
  fun_induction joinTexts t ts with
  | case1 t s rest ih =>
    obtain ⟨u, hu, hchain, hhead⟩ := ih
    have horderly : Orderly rest (joinTexts (t ++ s) rest).2 := ⟨u, hu, hchain⟩
    exact horderly.continues rfl rfl
  | case2 t rest _ => exact .refl _

/-- What the functions that read an expression use up stands next to each other as it may. -/
structure OrderlyWith (n : Nat) : Prop where
  parse : ∀ {level ts e rest}, Expr.parse n level ts = some (e, rest) → Orderly ts rest
  joined : ∀ {level a ts e rest}, parseJoined n level a ts = some (e, rest) → Continues ts rest
  chain : ∀ {ts links rest}, parseChain n ts = some (links, rest) → Continues ts rest
  tail : ∀ {a ts e rest}, parseTail n a ts = some (e, rest) → Continues ts rest
  atom : ∀ {ts e rest}, parseAtom n ts = some (e, rest) → Orderly ts rest
  items : ∀ {close ts es comma rest}, parseItems n close ts = some (es, comma, rest) →
    Orderly ts rest

section Successor

variable {n : Nat} (h : OrderlyWith n)

include h

/-- Joined expressions are in order if their operands are. -/
theorem OrderlyWith.joined_succ {level : Level} {a e : Expr} {ts rest : List Token}
    (he : parseJoined (n + 1) level a ts = some (e, rest)) : Continues ts rest := by
  cases ts with
  | nil =>
    rw [parseJoined] at he
    · cases he
      exact .refl _
    · simp
  | cons t ts =>
    rw [parseJoined] at he
    split at he
    · next join hjoin =>
      obtain ⟨hj, ht⟩ := joins_of_joiner? hjoin
      split at he
      · next b rest' hb => exact ((h.parse hb).continues hj ht).trans (h.joined he)
      · cases he
    · cases he
      exact .refl _

/-- A chain of comparisons is in order if its operands are. -/
theorem OrderlyWith.chain_succ {links : List (CompareOp × Expr)} {ts rest : List Token}
    (he : parseChain (n + 1) ts = some (links, rest)) : Continues ts rest := by
  rw [parseChain] at he
  split at he
  · next op rest' hop =>
    split at he
    · next e rest'' hp =>
      obtain ⟨⟨links', r⟩, hlinks, hr⟩ := Option.map_eq_some_iff.1 he
      cases hr
      exact (continues_of_comparison? hop (h.parse hp)).trans (h.chain hlinks)
    · cases he
  · cases he
    exact .refl _

/-- Items and calls are in order if their parts are. -/
theorem OrderlyWith.tail_succ {a e : Expr} {ts rest : List Token}
    (he : parseTail (n + 1) a ts = some (e, rest)) : Continues ts rest := by
  cases ts with
  | nil =>
    rw [parseTail] at he
    · cases he
      exact .refl _
    · simp
  | cons t ts =>
    rw [parseTail] at he
    split at he
    · next ht =>
      have hopen : ∀ {r}, Orderly ts r → Continues (t :: ts) r := fun hr ↦
        hr.continues (joins_of_isSign ht) (closes_of_isSign (by decide) ht)
      split at he
      · next items comma rest' hi =>
        split at he
        · cases he
        · exact (hopen (h.items hi)).trans (h.tail he)
        · exact (hopen (h.items hi)).trans (h.tail he)
      · cases he
    · split at he
      · next ht =>
        split at he
        · next args comma rest' hi =>
          have hopen : Continues (t :: ts) rest' :=
            (h.items hi).continues (joins_of_isSign ht) (closes_of_isSign (by decide) ht)
          exact hopen.trans (h.tail he)
        · cases he
      · cases he
        exact .refl _

/-- An atom is in order if its parts are. -/
theorem OrderlyWith.atom_succ {e : Expr} {ts rest : List Token}
    (he : parseAtom (n + 1) ts = some (e, rest)) : Orderly ts rest := by
  unfold parseAtom at he
  split at he
  · cases he
    exact .single _ _
  · cases he
    exact .single _ _
  · next t ts =>
    have hr : (joinTexts t ts).2 = rest := (Prod.mk.inj (Option.some.inj he)).2
    rw [← hr]
    exact (Orderly.single _ _).trans (continues_joinTexts t ts)
  · obtain ⟨e', -, hr⟩ := Option.map_eq_some_iff.1 he
    cases hr
    exact .single _ _
  · split at he
    · next hi =>
      cases he
      exact (h.items hi).cons rfl
    · next hi =>
      cases he
      exact (h.items hi).cons rfl
    · cases he
  · split at he
    · next hi =>
      cases he
      exact (h.items hi).cons rfl
    · cases he
  · cases he

/-- Items are in order if they are one by one. -/
theorem OrderlyWith.items_succ {close : String} {es : List Expr} {comma : Bool}
    {ts rest : List Token} (he : parseItems (n + 1) close ts = some (es, comma, rest)) :
    Orderly ts rest := by
  cases ts with
  | nil =>
    rw [parseItems] at he
    · cases he
    · simp
  | cons t ts =>
    rw [parseItems] at he
    split at he
    · cases he
      exact .single _ _
    · split at he
      · next e next rest' hp =>
        split at he
        · next hclose =>
          cases he
          exact (h.parse hp).close (joins_of_isSign hclose)
        · split at he
          · next hcomma =>
            obtain ⟨⟨items, c, r⟩, hi, hr⟩ := Option.map_eq_some_iff.1 he
            cases hr
            exact (h.parse hp).around (joins_of_isSign hcomma)
              (closes_of_isSign (by decide) hcomma) (h.items hi)
          · cases he
      · cases he

/-- An expression is in order if its parts are. -/
theorem OrderlyWith.parse_succ {level : Level} {e : Expr} {ts rest : List Token}
    (he : Expr.parse (n + 1) level ts = some (e, rest)) : Orderly ts rest := by
  unfold Expr.parse at he
  cases level with
  | choice =>
    dsimp only at he
    split at he
    · next a t r hp =>
      split at he
      · next hif =>
        obtain ⟨hj, hc⟩ := joins_of_isWord (by decide) hif
        split at he
        · next c t' r' hp' =>
          split at he
          · next helse =>
            obtain ⟨hj', hc'⟩ := joins_of_isWord (by decide) helse
            split at he
            · next b r'' hp'' =>
              cases he
              exact (h.parse hp).around hj hc ((h.parse hp').around hj' hc' (h.parse hp''))
            · cases he
          · cases he
        · cases he
      · cases he
        exact h.parse hp
    · exact h.parse he
  | not =>
    dsimp only at he
    split at he
    · split at he
      · next hnot =>
        obtain ⟨⟨e', r⟩, hp, hr⟩ := Option.map_eq_some_iff.1 he
        cases hr
        exact (h.parse hp).cons (joins_of_isWord (by decide) hnot).2
      · exact h.parse he
    · cases he
  | compare =>
    dsimp only at he
    split at he
    · next first r hp =>
      split at he
      · next hlinks =>
        cases he
        exact (h.parse hp).trans (h.chain hlinks)
      · next hlinks =>
        cases he
        exact (h.parse hp).trans (h.chain hlinks)
      · cases he
    · cases he
  | factor =>
    dsimp only at he
    split at he
    · next t r =>
      split at he
      · next op hop =>
        obtain ⟨⟨e', r'⟩, hp, hr⟩ := Option.map_eq_some_iff.1 he
        cases hr
        exact (h.parse hp).cons (closes_of_unary? hop)
      · exact h.parse he
    · cases he
  | power =>
    dsimp only at he
    split at he
    · next a r ha =>
      split at he
      · next a' t r' htail =>
        split at he
        · next hpow =>
          obtain ⟨⟨b, r''⟩, hp, hr⟩ := Option.map_eq_some_iff.1 he
          cases hr
          have hbase : Orderly ts (t :: r') := (h.atom ha).trans (h.tail htail)
          exact hbase.around (joins_of_isSign hpow) (closes_of_isSign (by decide) hpow) (h.parse hp)
        · cases he
          exact (h.atom ha).trans (h.tail htail)
      · exact (h.atom ha).trans (h.tail he)
    · cases he
  | _ =>
    -- the other levels read an operand of the next level and go on with their operators
    dsimp only at he
    split at he
    · next a r hp => exact (h.parse hp).trans (h.joined he)
    · cases he

end Successor

private theorem orderlyWith (n : Nat) : OrderlyWith n := by
  induction n with
  | zero =>
    constructor
    all_goals
      intros
      next h => cases h
  | succ n ih =>
    exact ⟨ih.parse_succ, ih.joined_succ, ih.chain_succ, ih.tail_succ, ih.atom_succ, ih.items_succ⟩

/-- Expressions between commas stand next to each other as they may. -/
theorem orderly_of_parseAll {fuel n : Nat} {ts : List Token} {r : List Expr × Bool}
    (h : parseAll fuel n ts = some r) : Orderly ts [] := by
  induction n generalizing ts r with
  | zero => cases h
  | succ n ih =>
    cases ts with
    | nil => exact ⟨[], rfl, .nil⟩
    | cons t ts =>
      rw [parseAll] at h
      · split at h
        · next e hp => exact (orderlyWith fuel).parse hp
        · next e t' rest hp =>
          split at h
          · next hcomma =>
            obtain ⟨r', hr', -⟩ := Option.map_eq_some_iff.1 h
            exact ((orderlyWith fuel).parse hp).around (joins_of_isSign hcomma)
              (closes_of_isSign (by decide) hcomma) (ih hr')
          · cases h
        · cases h
      · simp

/-- In an expression that can be read, tokens stand next to each other as they may. -/
theorem isChain_of_ofTokens? {ts : List Token} {e : Expr} (h : ofTokens? ts = some e) :
    ts.IsChain MayFollow := by
  unfold ofTokens? at h
  have hall : ∃ r, parseAll (20 * (ts.length + 1)) (ts.length + 1) ts = some r := by
    split at h
    · cases h
    · next hp => exact ⟨_, hp⟩
    · next hp => exact ⟨_, hp⟩
    · cases h
  obtain ⟨r, hr⟩ := hall
  obtain ⟨used, hused, hchain⟩ := orderly_of_parseAll hr
  rw [hused, List.append_nil]
  exact hchain

end Expr

end Deskhand.Script
