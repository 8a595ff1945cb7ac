import Deskhand.Proofs.NamePieces

/-!
# Replacing names in turn or at once

A text to type has its names replaced in turn, over the whole line, in the order in which the
variables were declared. A name then also catches the beginning of a longer name, a name with the
value that was put in after it, and what stands in a value put in before. For all values of the
variables the line becomes what it becomes in an expression, exactly if no name catches anything of
the kind and every value can be shown.
-/

namespace Deskhand

namespace Script

/-! ### What a name catches -/

/-- The pieces begin with a name that is `done`. -/
def BeginsDone (done : List Text) : List Piece → Prop
  | .name w :: _ => '$' :: w ∈ done
  | _ => False

/-- Replacing `n`, after the names that are `done` and before those that are `todo`, catches more
than the name `n`. The values of the names in `loose` may hold dollar signs. -/
def Catches (loose done : List Text) (n : Text) (todo : List Text) : List Piece → Prop
  | [] => False
  | .char _ :: ps => Catches loose done n todo ps
  | .name w :: ps =>
    -- the beginning of a longer name
    ('$' :: w ∈ todo ∧ n <+: '$' :: w) ∨
    -- what stands in the value of a name
    ('$' :: w ∈ done ∧ '$' :: w ∈ loose) ∨
    -- a name, or a lone dollar sign, with the value that was put in right after it
    (('$' :: w ∈ todo ∨ w = []) ∧ '$' :: w <+: n ∧ BeginsDone done ps) ∨
    Catches loose done n todo ps

/-- None of the names that are still to be replaced catches more than itself. -/
def Uncaught (loose : List Text) (ps : List Piece) (done : List Text) : List Text → Prop
  | [] => True
  | n :: todo => ¬ Catches loose done n todo ps ∧ Uncaught loose ps (done ++ [n]) todo

instance (done : List Text) (ps : List Piece) : Decidable (BeginsDone done ps) :=
  match ps with
  | [] => inferInstanceAs (Decidable False)
  | .char _ :: _ => inferInstanceAs (Decidable False)
  | .name w :: _ => inferInstanceAs (Decidable ('$' :: w ∈ done))

instance Catches.decidable (loose done : List Text) (n : Text) (todo : List Text) :
    (ps : List Piece) → Decidable (Catches loose done n todo ps)
  | [] => inferInstanceAs (Decidable False)
  | .char _ :: ps => Catches.decidable loose done n todo ps
  | .name w :: ps =>
    have := Catches.decidable loose done n todo ps
    inferInstanceAs (Decidable (('$' :: w ∈ todo ∧ n <+: '$' :: w) ∨
      ('$' :: w ∈ done ∧ '$' :: w ∈ loose) ∨
      (('$' :: w ∈ todo ∨ w = []) ∧ '$' :: w <+: n ∧ BeginsDone done ps) ∨
      Catches loose done n todo ps))

instance Uncaught.decidable (loose : List Text) (ps : List Piece) (done : List Text) :
    (names : List Text) → Decidable (Uncaught loose ps done names)
  | [] => inferInstanceAs (Decidable True)
  | n :: todo =>
    have := Uncaught.decidable loose ps (done ++ [n]) todo
    inferInstanceAs
      (Decidable (¬ Catches loose done n todo ps ∧ Uncaught loose ps (done ++ [n]) todo))

/-- A text in which names are replaced one after the other. -/
def inTurn (texts : Text → Text) (names : List Text) (t : Text) : Text :=
  names.foldl (fun t n ↦ Text.replaceAll t n (texts n)) t

private theorem inTurn_cons {n : Text} (hn : IsName n) (texts : Text → Text) (names : List Text)
    (t : Text) :
    inTurn texts (n :: names) t = inTurn texts names (Text.replaceFrom n (texts n) 0 t) := by
  obtain ⟨w, rfl, -⟩ := hn
  rw [inTurn, List.foldl_cons, Text.replaceAll_of_ne_nil (List.cons_ne_nil _ _)]
  rfl

/-- After a name, pieces that begin with a word character begin with a value. -/
theorem beginsDone_of_isWord {texts : Text → Text} {done : List Text} {ps : List Piece} {c : Char}
    (hnext : ∀ d, ps.head? = some (.char d) → Text.isWord d = false) (hc : Text.isWord c = true)
    (h : [c] <+: filled texts done ps) : BeginsDone done ps := by
  match ps with
  | [] => simp [filled] at h
  | .char d :: ps =>
    have hd : c = d := by simpa [Piece.filled] using h
    rw [← hd] at hnext
    exact absurd hc (by simp [hnext c rfl])
  | .name w :: ps =>
    by_cases hw : '$' :: w ∈ done
    · exact hw
    · have hd : c = '$' := by simpa [Piece.filled, hw] using h
      rw [hd, isWord_dollar] at hc
      cases hc

/-- A name that is not done and not caught is not at the beginning of a piece that is another
name. -/
theorem not_prefix_filled {texts : Text → Text} {done : List Text} {u w : Text} {ps : List Piece}
    (hnext : ∀ d, ps.head? = some (.char d) → Text.isWord d = false)
    (hword : ∀ c ∈ u, Text.isWord c = true) (hlonger : ¬ u <+: w)
    (hglued : w <+: u → ¬ BeginsDone done ps) : ¬ u <+: w ++ filled texts done ps := by
  intro hp
  rcases Nat.le_total u.length w.length with hle | hle
  · exact hlonger (List.prefix_of_prefix_length_le hp (List.prefix_append w _) hle)
  · have hw : w <+: u := List.prefix_of_prefix_length_le (List.prefix_append w _) hp hle
    obtain ⟨x, rfl⟩ := hw
    cases x with
    | nil => exact hlonger (by simp)
    | cons c x =>
      have hx : c :: x <+: filled texts done ps := (List.prefix_append_right_inj w).1 hp
      have hc : [c] <+: filled texts done ps := (List.prefix_append [c] x).trans hx
      exact hglued (List.prefix_append w _) (beginsDone_of_isWord hnext (hword c (by simp)) hc)

/-- Replacing a name that catches nothing else fills the pieces that are this name. -/
theorem replaceFrom_filled {texts : Text → Text} {loose done todo : List Text} {n : Text}
    {ps : List Piece} (hs : Split ps) (hn : IsName n) (hdone : n ∉ done)
    (hnames : ∀ w, .name w ∈ ps → w ≠ [] → '$' :: w ∈ done ++ n :: todo)
    (htexts : ∀ k ∈ done, k ∉ loose → '$' ∉ texts k) (h : ¬ Catches loose done n todo ps) :
    Text.replaceFrom n (texts n) 0 (filled texts done ps) = filled texts (done ++ [n]) ps := by
  obtain ⟨u, rfl, hu, hword⟩ := hn
  induction ps with
  | nil => rfl
  | cons p ps ih =>
    have hnames' : ∀ w, .name w ∈ ps → w ≠ [] → '$' :: w ∈ done ++ ('$' :: u) :: todo :=
      fun w hw ↦ hnames w (List.mem_cons_of_mem p hw)
    cases p with
    | char c =>
      obtain ⟨hc, hs⟩ := hs
      rw [filled_cons, filled_cons, ← ih hs hnames' h]
      exact Text.replaceFrom_append_of_not_mem (by simpa [Piece.filled] using hc.symm) _
    | name w =>
      obtain ⟨hw, hnext, hs⟩ := hs
      rw [Catches, not_or, not_or, not_or] at h
      obtain ⟨hlonger, hloose, hglued, h⟩ := h
      rw [filled_cons, filled_cons, ← ih hs hnames' h]
      by_cases hd : '$' :: w ∈ done
      · -- the value of a name done holds no dollar sign
        have hfree := htexts _ hd fun hl ↦ hloose ⟨hd, hl⟩
        simp only [Piece.filled, hd, List.mem_append, true_or, if_true]
        exact Text.replaceFrom_append_of_not_mem hfree _
      · by_cases he : w = u
        · subst he
          simp only [Piece.filled, hd, List.mem_append, List.mem_singleton, or_true, if_true, if_false]
          exact Text.replaceFrom_self_append (List.cons_ne_nil _ _) _
        · have hrest : '$' :: w ∉ done ++ ['$' :: u] := by simp [hd, he]
          have htodo : w ≠ [] → '$' :: w ∈ todo := by
            intro hne
            simpa [hd, he] using hnames w List.mem_cons_self hne
          have hp : ¬ u <+: w ++ filled texts done ps := by
            apply not_prefix_filled hnext hword
            · intro hp
              have hne : w ≠ [] := by
                rintro rfl
                exact hu (List.prefix_nil.1 hp)
              exact hlonger ⟨htodo hne, List.cons_prefix_cons.2 ⟨rfl, hp⟩⟩
            · intro hp hb
              refine hglued ⟨?_, List.cons_prefix_cons.2 ⟨rfl, hp⟩, hb⟩
              exact (em (w = [])).symm.imp_left htodo
          simp only [Piece.filled, hd, hrest, if_false, List.cons_append]
          have hpre : ('$' :: u).isPrefixOf ('$' :: (w ++ filled texts done ps)) = false := by
            rw [Bool.eq_false_iff, ne_eq, List.isPrefixOf_iff_prefix]
            exact fun h ↦ hp (List.cons_prefix_cons.1 h).2
          have hfree : '$' ∉ w := by
            intro hm
            have := hw _ hm
            rw [isWord_dollar] at this
            cases this
          rw [Text.replaceFrom, hpre, if_neg Bool.false_ne_true,
            Text.replaceFrom_append_of_not_mem hfree]

/-- Names that catch nothing but themselves are replaced in turn as they are at once. -/
theorem inTurn_filled {texts : Text → Text} {loose done names : List Text} {ps : List Piece}
    (hs : Split ps) (hn : WellNamed (done ++ names))
    (hnames : ∀ w, .name w ∈ ps → w ≠ [] → '$' :: w ∈ done ++ names)
    (htexts : ∀ k ∈ done ++ names, k ∉ loose → '$' ∉ texts k) (h : Uncaught loose ps done names) :
    inTurn texts names (filled texts done ps) = filled texts (done ++ names) ps := by
  induction names generalizing done with
  | nil => simp [inTurn]
  | cons n todo ih =>
    have happend : done ++ n :: todo = done ++ [n] ++ todo := by simp
    have hname : IsName n := hn.isName n (by simp)
    have hdone : n ∉ done := fun hd ↦ hn.nodup.disjoint hd (by simp)
    have hstep := replaceFrom_filled hs hname hdone hnames
      (fun k hk ↦ htexts k (List.mem_append_left _ hk)) h.1
    rw [inTurn_cons hname, hstep]
    rw [happend] at hn hnames htexts ⊢
    exact ih hn hnames htexts h.2

end Script

/-! ### Counting occurrences -/

namespace Text

/-- How often a part occurs in a text. -/
def occurrences (part : Text) : Text → Nat
  | [] => 0
  | c :: t => (if part.isPrefixOf (c :: t) then 1 else 0) + occurrences part t

/-- What occurs in parts of a text occurs in the text. -/
theorem occurrences_append_le (part a b : Text) :
    occurrences part a + occurrences part b ≤ occurrences part (a ++ b) := by
  induction a with
  | nil => simp [occurrences]
  | cons c a ih =>
    have hp : part.isPrefixOf (c :: a) = true → part.isPrefixOf (c :: (a ++ b)) = true := by
      rw [List.isPrefixOf_iff_prefix, List.isPrefixOf_iff_prefix]
      exact fun h ↦ h.trans (List.prefix_append (c :: a) b)
    rw [List.cons_append, occurrences, occurrences]
    split
    · next h =>
      rw [if_pos (hp h)]
      omega
    · omega

private theorem occurrences_append_of_not_mem {c : Char} {a : Text} (part : Text) (h : c ∉ a)
    (b : Text) :
    occurrences (c :: part) (a ++ b) = occurrences (c :: part) b := by
  induction a with
  | nil => rfl
  | cons d a ih =>
    have hp : ¬ (c :: part).isPrefixOf (d :: (a ++ b)) = true := by
      rw [List.isPrefixOf_iff_prefix]
      exact fun hp ↦ h (by simp [(List.cons_prefix_cons.1 hp).1])
    rw [List.cons_append, occurrences, if_neg hp, ih fun hm ↦ h (List.mem_cons_of_mem d hm),
      Nat.zero_add]

private theorem occurrences_self_append {c : Char} {part : Text} (h : c ∉ part) (b : Text) :
    occurrences (c :: part) (c :: part ++ b) = 1 + occurrences (c :: part) b := by
  have hp : (c :: part).isPrefixOf (c :: (part ++ b)) = true := by
    rw [List.isPrefixOf_iff_prefix]
    exact List.prefix_append (c :: part) b
  rw [List.cons_append, occurrences, if_pos hp, occurrences_append_of_not_mem part h]

/-- Replacing brings in the characters of the new text once for every occurrence. -/
theorem count_replaceFrom {c d : Char} {part : Text} (hc : c ∉ part) (hd : d ∉ c :: part)
    (new t : Text) : (replaceFrom (c :: part) new 0 t).count d =
      t.count d + occurrences (c :: part) t * new.count d := by
  induction hl : t.length using Nat.strong_induction_on generalizing t with
  | _ l ih =>
    by_cases hp : c :: part <+: t
    · obtain ⟨r, rfl⟩ := hp
      have hr : r.length < l := by
        rw [← hl, List.length_append, List.length_cons]
        omega
      rw [replaceFrom_self_append (List.cons_ne_nil c part), List.count_append,
        ih r.length hr r rfl, occurrences_self_append hc, List.count_append,
        List.count_eq_zero_of_not_mem hd, Nat.add_mul]
      omega
    · cases t with
      | nil => simp [occurrences]
      | cons e t =>
        rw [← List.isPrefixOf_iff_prefix] at hp
        rw [replaceFrom, if_neg hp, List.count_cons, List.count_cons,
          ih t.length (by simp [← hl]) t rfl, occurrences, if_neg hp, Nat.zero_add]
        omega

end Text

namespace Script

section Extra

variable {loose done todo : List Text} {u : Text} {ps : List Piece}

/-- A name occurs wherever a piece is this name and is not done. -/
theorem count_name_le_occurrences (hu : '$' ∉ u) (hdone : '$' :: u ∉ done) (texts : Text → Text)
    (ps : List Piece) : ps.count (.name u) ≤ Text.occurrences ('$' :: u) (filled texts done ps) := by
  induction ps with
  | nil => simp
  | cons p ps ih =>
    have hle := Text.occurrences_append_le ('$' :: u) (p.filled texts done) (filled texts done ps)
    rw [filled_cons]
    by_cases hp : p = .name u
    · have hone := Text.occurrences_self_append hu []
      rw [List.append_nil] at hone
      rw [hp, Piece.filled, if_neg hdone] at hle ⊢
      rw [List.count_cons_self]
      omega
    · rw [List.count_cons_of_ne hp]
      omega

/-- The name `'$' :: u` occurs more often than it stands there, if another name `q` has the text `x`,
which is a part of the name. -/
def Extra (loose done : List Text) (u : Text) (ps : List Piece) : Prop :=
  ∃ q x, (q ≠ '$' :: u → x <:+: '$' :: u ∧ ('$' ∈ x → q ∈ loose)) ∧
    ∀ texts : Text → Text, (q ≠ '$' :: u → texts q = x) →
      ps.count (.name u) < Text.occurrences ('$' :: u) (filled texts done ps)

/-- What occurs too often in the rest occurs too often in the whole. -/
theorem Extra.cons (hu : '$' ∉ u) (hdone : '$' :: u ∉ done) (h : Extra loose done u ps)
    (p : Piece) :
    Extra loose done u (p :: ps) := by
  obtain ⟨q, x, hx, hlt⟩ := h
  refine ⟨q, x, hx, fun texts ht ↦ ?_⟩
  have hle := Text.occurrences_append_le ('$' :: u) (filled texts done [p]) (filled texts done ps)
  have hfirst := count_name_le_occurrences hu hdone texts [p]
  have hrest := hlt texts ht
  have hcount : (p :: ps).count (.name u) = [p].count (.name u) + ps.count (.name u) := by
    rw [← List.count_append]
    rfl
  rw [filled_cons]
  rw [filled_cons, show filled texts done [] = [] from rfl, List.append_nil] at hle hfirst
  omega

private theorem count_name_lt_of_shown (hu : '$' ∉ u) (hdone : '$' :: u ∉ done)
    {texts : Text → Text} {w r : Text} (hw : w ≠ u)
    (hr : Piece.filled texts done (.name w) = '$' :: u ++ r) :
    (Piece.name w :: ps).count (.name u) <
      Text.occurrences ('$' :: u) (filled texts done (.name w :: ps)) := by
  have hle := Text.occurrences_append_le ('$' :: u) ('$' :: u ++ r) (filled texts done ps)
  have hone := Text.occurrences_self_append hu r
  have hrest := count_name_le_occurrences hu hdone texts ps
  rw [filled_cons, hr, List.count_cons_of_ne (by simpa using hw)]
  omega

/-- A name, or a lone dollar sign, with the text of the next name makes the name occur once more. -/
theorem extra_of_glued (hu : '$' ∉ u) (hdone : '$' :: u ∉ done) {w : Text} (hw : w ≠ u)
    (hnot : '$' :: w ∉ done) (hp : w <+: u) (hb : BeginsDone done ps) :
    Extra loose done u (.name w :: ps) := by
  match ps, hb with
  | .name w' :: ps, hb =>
    obtain ⟨x, hx⟩ := hp
    have hmem : '$' :: w' ∈ done := hb
    have hne : '$' :: w' ≠ '$' :: u := fun he ↦ hdone (he ▸ hmem)
    have hfree : '$' ∉ x := fun hm ↦ hu (by rw [← hx]; exact List.mem_append_right w hm)
    refine ⟨'$' :: w', x, fun _ ↦ ⟨?_, fun hm ↦ absurd hm hfree⟩, fun texts ht ↦ ?_⟩
    · exact ⟨'$' :: w, [], by simp [hx]⟩
    · have hrest := count_name_le_occurrences hu hdone texts ps
      have hone := Text.occurrences_self_append hu (filled texts done ps)
      have hfilled : filled texts done (.name w :: .name w' :: ps) =
          '$' :: u ++ filled texts done ps := by
        rw [filled_cons, filled_cons, Piece.filled, Piece.filled, if_neg hnot, if_pos hmem, ht hne,
          ← hx]
        simp
      rw [hfilled, hone, List.count_cons_of_ne (by simpa using hw),
        List.count_cons_of_ne (by simpa using hne)]
      omega

/-- A name that catches more than itself occurs too often. -/
theorem extra_of_catches (hn : WellNamed (done ++ ('$' :: u) :: todo))
    (h : Catches loose done ('$' :: u) todo ps) : Extra loose done u ps := by
  have hname : IsName ('$' :: u) := hn.isName _ (by simp)
  have hu : '$' ∉ u := hname.dollar_not_mem
  have hdone : '$' :: u ∉ done := fun hd ↦ hn.nodup.disjoint hd (by simp)
  have hlater : ∀ w, '$' :: w ∈ todo → '$' :: w ∉ done ∧ w ≠ u := by
    intro w hw
    refine ⟨fun hd ↦ hn.nodup.disjoint hd (by simp [hw]), ?_⟩
    rintro rfl
    exact (List.nodup_cons.1 hn.nodup.of_append_right).1 hw
  induction ps with
  | nil => exact h.elim
  | cons p ps ih =>
    cases p with
    | char c => exact (ih h).cons hu hdone _
    | name w =>
      rw [Catches] at h
      rcases h with ⟨hmem, r, hr⟩ | ⟨hmem, hloose⟩ | ⟨hmem, hp, hb⟩ | h
      · obtain ⟨hnot, hw⟩ := hlater w hmem
        refine ⟨'$' :: u, [], fun hne ↦ absurd rfl hne, fun texts _ ↦ ?_⟩
        exact count_name_lt_of_shown hu hdone hw (by rw [Piece.filled, if_neg hnot, hr])
      · have hne : '$' :: w ≠ '$' :: u := fun he ↦ hdone (he ▸ hmem)
        refine ⟨'$' :: w, '$' :: u, fun _ ↦ ⟨List.infix_rfl, fun _ ↦ hloose⟩, fun texts ht ↦ ?_⟩
        apply count_name_lt_of_shown hu hdone (r := []) (by simpa using hne)
        rw [Piece.filled, if_pos hmem, ht hne, List.append_nil]
      · have hw : '$' :: w ∉ done ∧ w ≠ u := by
          rcases hmem with hmem | rfl
          · exact hlater w hmem
          · refine ⟨fun hd ↦ (hn.isName _ (List.mem_append_left _ hd)).ne_lone rfl, ?_⟩
            rintro rfl
            exact hname.ne_lone rfl
        exact extra_of_glued hu hdone hw.2 hw.1 (List.cons_prefix_cons.1 hp).2 hb
      · exact (ih h).cons hu hdone _

end Extra

/-! ### Values that tell the two apart -/

/-- Texts of which only that of `n` holds a minus sign, while `q` has the text `x`. -/
structure Marked (loose : List Text) (n q x : Text) (texts : Text → Text) : Prop where
  mark : (texts n).count '-' = 1
  unmarked : ∀ k, k ≠ n → '-' ∉ texts k
  other : q ≠ n → texts q = x
  free : ∀ k, k ∉ loose → '$' ∉ texts k

section Marked

variable {loose done : List Text} {ps : List Piece} {texts : Text → Text} {u q x : Text}

private theorem minus_not_mem_of_isWord {w : Text} (h : ∀ c ∈ w, Text.isWord c = true) :
    '-' ∉ w := by
  intro hm
  have hword := h '-' hm
  rw [show Text.isWord '-' = false by decide] at hword
  cases hword

/-- Filled pieces hold the minus signs of the line, and one for each piece that is the marked name
if that is done. -/
theorem count_filled (hm : Marked loose ('$' :: u) q x texts) (hs : Split ps) (done : List Text) :
    (filled texts done ps).count '-' =
      ps.count (.char '-') + if '$' :: u ∈ done then ps.count (.name u) else 0 := by
  induction ps with
  | nil => simp [filled]
  | cons p ps ih =>
    cases p with
    | char c =>
      have hc : ([c] : Text).count '-' = [Piece.char c].count (.char '-') := by
        by_cases hc : c = '-'
        · simp [hc]
        · simp [hc]
      have hcons : (Piece.char c :: ps).count (.char '-') =
          [Piece.char c].count (.char '-') + ps.count (.char '-') := by
        rw [← List.count_append]
        rfl
      have hname : (Piece.char c :: ps).count (.name u) = ps.count (.name u) :=
        List.count_cons_of_ne (by simp)
      rw [filled_cons, List.count_append, ih hs.2, Piece.filled, hc, hcons, hname]
      omega
    | name w =>
      obtain ⟨hw, -, hs⟩ := hs
      have hbare : ('$' :: w).count '-' = 0 :=
        List.count_eq_zero_of_not_mem (by simpa using minus_not_mem_of_isWord hw)
      rw [filled_cons, List.count_append, ih hs, List.count_cons_of_ne (by simp), Piece.filled]
      by_cases he : w = u
      · subst he
        rw [List.count_cons_self]
        split
        · rw [hm.mark]
          omega
        · omega
      · have hrest : (Piece.name w :: ps).count (.name u) = ps.count (.name u) :=
          List.count_cons_of_ne (by simpa using he)
        have hother : (texts ('$' :: w)).count '-' = 0 :=
          List.count_eq_zero_of_not_mem (hm.unmarked _ (by simpa using he))
        rw [hrest]
        split <;> omega

/-- Names that are not marked bring in no minus signs. -/
theorem count_inTurn (hm : Marked loose ('$' :: u) q x texts) {names : List Text}
    (hn : ∀ n ∈ names, IsName n) (hu : '$' :: u ∉ names) (t : Text) :
    (inTurn texts names t).count '-' = t.count '-' := by
  induction names generalizing t with
  | nil => rfl
  | cons n names ih =>
    obtain ⟨hne, hu⟩ := not_or.1 (mt List.mem_cons.2 hu)
    have hname := hn n List.mem_cons_self
    have hnone : (texts n).count '-' = 0 :=
      List.count_eq_zero_of_not_mem (hm.unmarked n fun he ↦ hne he.symm)
    rw [inTurn_cons hname, ih (fun k hk ↦ hn k (List.mem_cons_of_mem n hk)) hu]
    obtain ⟨w, rfl, -, hword⟩ := id hname
    rw [Text.count_replaceFrom hname.dollar_not_mem
      (by simpa using minus_not_mem_of_isWord hword), hnone, Nat.mul_zero, Nat.add_zero]

/-- Where a name catches more than itself, there are values with which names replaced in turn leave
more minus signs than names replaced at once. -/
theorem exists_marked {names : List Text} (hs : Split ps) (hn : WellNamed (done ++ names))
    (hnames : ∀ w, .name w ∈ ps → w ≠ [] → '$' :: w ∈ done ++ names)
    (h : ¬ Uncaught loose ps done names) :
    ∃ n q x, (q ≠ n → '-' ∉ x ∧ ('$' ∈ x → q ∈ loose)) ∧ ∀ texts, Marked loose n q x texts →
      (filled texts (done ++ names) ps).count '-' <
        (inTurn texts names (filled texts done ps)).count '-' := by
  induction names generalizing done with
  | nil => exact absurd trivial h
  | cons n todo ih =>
    have hname : IsName n := hn.isName n (by simp)
    have hdone : n ∉ done := fun hd ↦ hn.nodup.disjoint hd (by simp)
    by_cases hc : Catches loose done n todo ps
    · obtain ⟨u, rfl, -, hword⟩ := id hname
      obtain ⟨q, x, hx, hlt⟩ := extra_of_catches hn hc
      have hsign : '-' ∉ '$' :: u := by simpa using minus_not_mem_of_isWord hword
      refine ⟨'$' :: u, q, x, fun hq ↦ ?_, fun texts hm ↦ ?_⟩
      · exact ⟨fun hmem ↦ hsign ((hx hq).1.subset hmem), (hx hq).2⟩
      · have hmore := hlt texts hm.other
        have htodo : '$' :: u ∉ todo := (List.nodup_cons.1 hn.nodup.of_append_right).1
        rw [inTurn_cons hname, count_inTurn hm (fun k hk ↦ hn.isName k (by simp [hk])) htodo,
          Text.count_replaceFrom hname.dollar_not_mem hsign, hm.mark, count_filled hm hs,
          count_filled hm hs, if_neg hdone, if_pos (by simp)]
        omega
    · have happend : done ++ n :: todo = done ++ [n] ++ todo := by simp
      have hlater : ¬ Uncaught loose ps (done ++ [n]) todo := fun hu ↦ h ⟨hc, hu⟩
      obtain ⟨n', q, x, hx, hlt⟩ := ih (happend ▸ hn) (happend ▸ hnames) hlater
      refine ⟨n', q, x, hx, fun texts hm ↦ ?_⟩
      have hstep := replaceFrom_filled hs hname hdone hnames (fun k _ ↦ hm.free k) hc
      rw [inTurn_cons hname, hstep, happend]
      exact hlt texts hm

end Marked

/-! ### Lines of a machine -/

/-- The text of a variable, if it has one. -/
def textOf (values : Table Value) (name : Text) : Text :=
  ((values.get? name).bind Value.display?).getD []

/-- Every variable has a text. -/
def AllShown (values : Table Value) : Prop := ∀ n v, (n, v) ∈ values → v.display?.isSome

/-- An entry is looked up by its key, if no key is there twice. -/
theorem get?_of_mem {values : Table Value} {n : Text} {v : Value} (hn : values.keys.Nodup)
    (h : (n, v) ∈ values) : values.get? n = some v := by
  induction values with
  | nil => simp at h
  | cons entry rest ih =>
    obtain ⟨k, w⟩ := entry
    obtain ⟨hk, hrest⟩ := List.nodup_cons.1 hn
    rcases List.mem_cons.1 h with he | hmem
    · cases he
      simp [Table.get?]
    · have hne : (n == k) = false := by
        rw [beq_eq_false_iff_ne]
        rintro rfl
        exact hk (List.mem_map.2 ⟨_, hmem, rfl⟩)
      rw [Table.get?, List.lookup_cons, hne]
      exact ih hrest hmem

private theorem display?_eq_textOf {values : Table Value} {n : Text} {v : Value}
    (hn : values.keys.Nodup) (hs : AllShown values) (h : (n, v) ∈ values) :
    v.display? = some (textOf values n) := by
  obtain ⟨t, ht⟩ := Option.isSome_iff_exists.1 (hs n v h)
  rw [textOf, get?_of_mem hn h, Option.bind_some, ht, Option.getD_some]

/-- If every value can be shown, the names are replaced in turn by their texts. -/
theorem replaceNames_eq_inTurn {values : Table Value} {texts : Text → Text}
    (h : ∀ n v, (n, v) ∈ values → v.display? = some (texts n)) (line : Text) (m : Machine) :
    Macro.replaceNames line values m = .ok (inTurn texts values.keys line) m := by
  induction values generalizing line with
  | nil => rfl
  | cons entry rest ih =>
    obtain ⟨n, v⟩ := entry
    have hshown : Macro.display v m = .ok (texts n) m := by
      rw [Macro.display, h n v List.mem_cons_self]
      rfl
    rw [Macro.replaceNames, bind_of_ok hshown]
    exact ih (fun k w hk ↦ h k w (List.mem_cons_of_mem _ hk)) _

private theorem replaceVariables_eq_replaceNames {m : Machine} (h : m.internals = [])
    (line : Text) :
    Macro.replaceVariables line m = Macro.replaceNames line m.variables m := by
  rw [Macro.replaceVariables, bind_of_ok (run_get m)]
  cases Macro.decided_replaceNames line m.variables with
  | value t ht =>
    rw [ht, pure_bind, bind_of_ok (run_get m), h]
    rfl
  | failure fault hf =>
    rw [hf]
    rfl

/-- The machine has variables of these names and no internal ones, and only the values of those in
`loose` may hold a dollar sign. -/
structure Machine.Declares (m : Machine) (names loose : List Text) : Prop where
  names : m.variables.keys = names
  internals : m.internals = []
  free : ∀ n v t, (n, v) ∈ m.variables → v.display? = some t → n ∉ loose → '$' ∉ t

/-- The names of a line are replaced in turn as they are in an expression. -/
def ReplacedAlike (m : Machine) (line : Text) : Prop :=
  ∃ t, Macro.substitute m.variables none line = some t ∧ Macro.replaceVariables line m = .ok t m

/-- Names are replaced alike if the texts in turn make what they make at once. -/
theorem replacedAlike_iff {m : Machine} {line : Text} {texts : Text → Text}
    (hn : WellNamed m.variables.keys) (hi : m.internals = [])
    (hline : ∀ w, .name w ∈ pieces line → w ≠ [] → '$' :: w ∈ m.variables.keys)
    (ht : ∀ n v, (n, v) ∈ m.variables → v.display? = some (texts n)) :
    ReplacedAlike m line ↔
      inTurn texts m.variables.keys line = filled texts m.variables.keys (pieces line) := by
  have hbare : ['$'] ∉ m.variables.keys := fun hm ↦ (hn.isName _ hm).ne_lone rfl
  have hatOnce : Macro.substitute m.variables none line =
      some (filled texts m.variables.keys (pieces line)) := by
    refine substitute_eq_filled hbare fun w hw hne ↦ ⟨hline w hw hne, ?_⟩
    obtain ⟨⟨n, v⟩, hmem, rfl⟩ := List.mem_map.1 (hline w hw hne)
    rw [Macro.substitute.value, get?_of_mem hn.nodup hmem]
    exact ht _ v hmem
  have hinTurn : Macro.replaceVariables line m = .ok (inTurn texts m.variables.keys line) m := by
    rw [replaceVariables_eq_replaceNames hi]
    exact replaceNames_eq_inTurn ht line m
  rw [ReplacedAlike, hatOnce, hinTurn]
  constructor
  · rintro ⟨t, h₁, h₂⟩
    rw [Option.some.inj h₁]
    exact (EStateM.Result.ok.inj h₂).1
  · intro he
    exact ⟨_, rfl, by rw [he]⟩

/-- A text with a minus sign for `n`, the text `x` for `q`, and zero for every other name. -/
def markedText (n q x k : Text) : Text :=
  if k = n then ['-', '1'] else if k = q then x else ['0']

/-- Only the text for `n` holds a minus sign, if `x` does not. -/
theorem marked_markedText {loose : List Text} {n q x : Text}
    (hx : q ≠ n → '-' ∉ x ∧ ('$' ∈ x → q ∈ loose)) : Marked loose n q x (markedText n q x) := by
  constructor
  · simp [markedText]
  · intro k hk
    rw [markedText, if_neg hk]
    split
    · next he => exact (hx (he ▸ hk)).1
    · decide
  · intro hq
    rw [markedText, if_neg hq, if_pos rfl]
  · intro k hk
    rw [markedText]
    split
    · decide
    · next hkn =>
      split
      · next he =>
        subst he
        exact fun hm ↦ hk ((hx hkn).2 hm)
      · decide

/-- In every machine with these variables, the names of a line are replaced in turn as they are in an
expression if every variable can be shown, and only then, exactly if no name catches more than itself
(`replaceVariables`). -/
theorem replaceVariables_eq_substitute_iff {names : List Text} (hn : WellNamed names) {line : Text}
    (hdeclared : ∀ p ∈ pieces line, p.isDeclared names = true) (loose : List Text) :
    (∀ m : Machine, m.Declares names loose → (ReplacedAlike m line ↔ AllShown m.variables)) ↔
      Uncaught loose (pieces line) [] names := by
  have hline : ∀ w, .name w ∈ pieces line → w ≠ [] → '$' :: w ∈ names := by
    intro w hw hne
    simpa [Piece.isDeclared, hne] using hdeclared _ hw
  have hs : Split (pieces line) := split_piecesFrom none line (by simp)
  have hall : WellNamed ([] ++ names) := hn
  have hpieces : ∀ texts, filled texts [] (pieces line) = line := fun texts ↦
    filled_piecesFrom texts none line
  constructor
  · intro h
    by_contra hcaught
    obtain ⟨n, q, x, hx, hlt⟩ := exists_marked hs hall hline hcaught
    have hmarked := marked_markedText hx
    -- the machine whose variables hold the marked texts
    let m : Machine := { Machine.fresh 0 0 0 with
      «variables» := names.map fun k ↦ (k, .text (markedText n q x k)) }
    have hkeys : m.variables.keys = names := by simp [m, Table.keys, Function.comp_def]
    have htexts : ∀ k v, (k, v) ∈ m.variables → v.display? = some (markedText n q x k) := by
      intro k v hmem
      obtain ⟨k', -, he⟩ := List.mem_map.1 hmem
      cases he
      rfl
    have hdeclares : m.Declares names loose := by
      refine ⟨hkeys, rfl, fun k v t hmem ht hk ↦ ?_⟩
      rw [htexts k v hmem] at ht
      cases ht
      exact hmarked.free k hk
    have halike := (h m hdeclares).2 fun k v hmem ↦ by simp [htexts k v hmem]
    rw [replacedAlike_iff (hkeys ▸ hn) rfl (hkeys ▸ hline) htexts, hkeys] at halike
    have hmore := hlt _ hmarked
    rw [hpieces, halike, List.nil_append] at hmore
    exact absurd hmore (Nat.lt_irrefl _)
  · intro h m hm
    have hkeys := hm.names
    constructor
    · rintro ⟨t, -, ht⟩
      rw [replaceVariables_eq_replaceNames hm.internals] at ht
      intro n v hmem
      by_contra hv
      rw [Macro.replaceNames_of_hidden hmem (by simpa using hv)] at ht
      cases ht
    · intro hshown
      have htexts : ∀ n v, (n, v) ∈ m.variables → v.display? = some (textOf m.variables n) :=
        fun n v hmem ↦ display?_eq_textOf (hkeys ▸ hn.nodup) hshown hmem
      rw [replacedAlike_iff (hkeys ▸ hn) hm.internals (hkeys ▸ hline) htexts, hkeys]
      have hfree : ∀ k ∈ [] ++ names, k ∉ loose → '$' ∉ textOf m.variables k := by
        intro k hk hloose
        rw [List.nil_append, ← hkeys] at hk
        obtain ⟨⟨n, v⟩, hmem, rfl⟩ := List.mem_map.1 hk
        exact hm.free n v _ hmem (htexts n v hmem) hloose
      have hfilled := inTurn_filled hs hall hline hfree h
      rwa [hpieces, List.nil_append] at hfilled

/-- A longer name is replaced alike, whatever the values, if it was declared before the shorter one,
and not if it was declared after it. -/
theorem replaceVariables_eq_substitute_iff_longer_first :
    (∀ m : Machine, m.Declares [minName, maxName, "$ab".toList, "$a".toList] [] →
      (ReplacedAlike m "$ab and $a".toList ↔ AllShown m.variables)) ∧
    ¬ ∀ m : Machine, m.Declares [minName, maxName, "$a".toList, "$ab".toList] [] →
      (ReplacedAlike m "$ab and $a".toList ↔ AllShown m.variables) := by
  have ha : IsName "$a".toList := ⟨['a'], rfl, by decide, List.all_eq_true.1 (by decide)⟩
  have hab : IsName "$ab".toList := ⟨['a', 'b'], rfl, by decide, List.all_eq_true.1 (by decide)⟩
  have hfirst : WellNamed [minName, maxName, "$ab".toList, "$a".toList] :=
    (wellNamed_bounds.concat hab (by decide)).concat ha (by decide)
  have hlast : WellNamed [minName, maxName, "$a".toList, "$ab".toList] :=
    (wellNamed_bounds.concat ha (by decide)).concat hab (by decide)
  constructor
  · rw [replaceVariables_eq_substitute_iff hfirst (List.all_eq_true.1 (by decide)) []]
    decide
  · rw [replaceVariables_eq_substitute_iff hlast (List.all_eq_true.1 (by decide)) []]
    decide

/-- What a line becomes after a script, with its names replaced at once and in turn. -/
def replacedAfter? (script line : Text) : Option (Text × Text) :=
  match Job.runAll [.script script] (Machine.fresh 1 10 10) with
  | .error .. => none
  | .ok _ m =>
    match Macro.substitute m.variables none line, Macro.replaceVariables line m with
    | some t, .ok u _ => some (t, u)
    | _, _ => none

/-- After a script that declares a name and then a longer one that begins with it, the shorter one
catches the beginning of the longer one. -/
theorem longer_name_caught : ∃ m m',
    Job.runAll [.script "VAR $a = 1\nVAR $ab = 2".toList] (Machine.fresh 1 10 10) = .ok () m ∧
    Macro.substitute m.variables none "$ab".toList = some "2".toList ∧
    Macro.replaceVariables "$ab".toList m = .ok "1b".toList m' := by
  have h : replacedAfter? "VAR $a = 1\nVAR $ab = 2".toList "$ab".toList =
      some ("2".toList, "1b".toList) := by decide +kernel
  unfold replacedAfter? at h
  split at h
  · cases h
  · next m hm =>
    split at h
    · next t u m' ht hu =>
      obtain ⟨rfl, rfl⟩ := Prod.mk.inj (Option.some.inj h)
      exact ⟨m, m', hm, ht, hu⟩
    · cases h

end Script

end Deskhand
