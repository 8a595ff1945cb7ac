import Deskhand.Hid.Layout
import Deskhand.Proofs.Outcome

/-!
# Typing a text by its key codes

A layout can be asked for the key codes of a character, and it can type a text. The two are worked
out apart: typing looks for a number above zero and presses right alt, shift and the key as it goes,
the key codes are refused where the number is zero and are made as a list. They agree: unless
characters are typed as two, typing a text is pressing the key codes of one character after the
other, and a text is refused where and as its key codes are.
-/

namespace Deskhand.Hid.Layout

/-! ### Numbers of characters -/

/-- The numbers of the further characters of a layout are not negative. -/
structure NonNegative (l : Layout) : Prop where
  byCode : ∀ entry ∈ l.byCode, 0 ≤ entry.2
  byChar : ∀ entry ∈ l.byChar, 0 ≤ entry.2

private theorem mem_of_lastEntry {κ : Type} [BEq κ] [LawfulBEq κ] {entries : List (κ × Int)}
    {key : κ} {n : Int} (h : lastEntry entries key = some n) :
    (key, n) ∈ entries := by
  obtain ⟨before, after, hsplit, -⟩ := List.lookup_eq_some_iff.mp h
  rw [← List.mem_reverse, hsplit]
  exact List.mem_append_right _ List.mem_cons_self

private theorem lastEntry_eq_none {κ : Type} [BEq κ] [LawfulBEq κ] {entries : List (κ × Int)}
    {key : κ} (h : key ∉ entries.map Prod.fst) :
    lastEntry entries key = none := by
  cases hn : lastEntry entries key with
  | none => rfl
  | some n => exact absurd (List.mem_map_of_mem (mem_of_lastEntry hn)) h

variable {l : Layout} {c : Char}

/-- In a layout without negative numbers no character has a negative number. -/
theorem NonNegative.number (hl : l.NonNegative) {n : Int} (h : l.number c = .ok n) : 0 ≤ n := by
  unfold Layout.number at h
  split at h
  · split at h
    · next k hk =>
      obtain rfl := Except.ok.inj h
      exact hl.byCode _ (mem_of_lastEntry hk)
    · obtain rfl := Except.ok.inj h
      cases hk : lastEntry l.byChar c with
      | none => exact Int.le_refl 0
      | some k => exact hl.byChar _ (mem_of_lastEntry hk)
  · split at h
    · obtain rfl := Except.ok.inj h
      exact Int.natCast_nonneg _
    · cases h

/-! ### Characters -/

/-- Types a character by its key codes: they go down one after the other and up together. -/
def typeCodes (l : Layout) (c : Char) : Act KeyReport Unit := do
  let codes ← Act.ofExcept (l.keyCodes [c])
  codes.forM fun code ↦ Keyboard.press [code]
  Keyboard.releaseAll

private theorem typeCodes_of_error {fault : Fault} (h : l.keyCodes [c] = .error fault) :
    l.typeCodes c = Act.fail fault := by
  rw [typeCodes, h]
  rfl

/-- A character that one stroke types is typed by it. -/
theorem typeChar_of_stroke {stroke : Stroke} (h : l.strokes c = ([stroke], none)) :
    l.typeChar c = typeStroke stroke := by
  rw [typeChar, h]
  change (typeStroke _ >>= fun _ ↦ pure ()) >>= (fun _ ↦ pure ()) = _
  rw [bind_pure_unit, bind_pure_unit]

/-- A character that has a number above zero is typed by the stroke of the number. -/
theorem typeChar_of_pos {n : Int} (h : l.number c = .ok n) (hn : 0 < n) :
    l.typeChar c = typeStroke ⟨n, l.needsAltGr c⟩ := by
  have hstrokes : l.strokes c = ([⟨n, l.needsAltGr c⟩], none) := by
    rw [strokes, h]
    exact if_pos hn
  exact typeChar_of_stroke hstrokes

/-- A character is refused before any key goes down, if it has no number or is neither typed by one
key nor as two. -/
theorem typeChar_of_fault {fault : Fault} (h : l.strokes c = ([], some fault)) :
    l.typeChar c = Act.fail fault := by
  rw [typeChar, h]
  rfl

/-- A character that is not typed as two is typed by its key codes, and refused as they are. -/
theorem typeChar_eq_typeCodes (hl : l.NonNegative) (hc : lastEntry l.combined c.toNat = none) :
    l.typeChar c = l.typeCodes c := by
  cases hn : l.number c with
  | error fault =>
    have hcodes : l.keyCodes [c] = .error fault := by rw [keyCodes, hn]
    have hstrokes : l.strokes c = ([], some fault) := by rw [strokes, hn]
    rw [typeCodes_of_error hcodes, typeChar_of_fault hstrokes]
  | ok n =>
    by_cases hz : n = 0
    · subst hz
      have hcodes : l.keyCodes [c] = .error (.noKey c) := by
        rw [keyCodes, hn]
        rfl
      have hstrokes : l.strokes c = ([], some (.noKey c)) := by
        rw [strokes, hn, hc]
        rfl
      rw [typeCodes_of_error hcodes, typeChar_of_fault hstrokes]
    · -- the number is not negative, so it is above zero
      have hpos : 0 < n := Int.lt_iff_le_and_ne.mpr ⟨hl.number hn, Ne.symm hz⟩
      have hcodes : l.keyCodes [c] = .ok (Stroke.codes ⟨n, l.needsAltGr c⟩) := by
        rw [keyCodes, hn]
        exact if_neg (by simpa using hz)
      rw [typeChar_of_pos hn hpos, typeStroke_eq_forM, typeCodes, hcodes]
      rfl

/-! ### Texts -/

/-- Typing a text types its characters one after the other. -/
theorem typeText_cons (l : Layout) (c : Char) (t : Text) :
    l.typeText none (c :: t) = l.typeChar c >>= fun _ ↦ l.typeText none t := by
  change (l.typeChar c >>= fun _ ↦ pure ()) >>= (fun _ ↦ l.typeText none t) = _
  rw [bind_pure_unit]

/-- Two texts in a row are typed one after the other. -/
theorem typeText_append (l : Layout) (t u : Text) :
    l.typeText none (t ++ u) = l.typeText none t >>= fun _ ↦ l.typeText none u := by
  induction t with
  | nil => rfl
  | cons c t ih => rw [List.cons_append, typeText_cons, typeText_cons, ih, bind_assoc]

private theorem typeText_eq_forM_typeCodes (hl : l.NonNegative) {t : Text}
    (ht : ∀ c ∈ t, lastEntry l.combined c.toNat = none) :
    l.typeText none t = t.forM l.typeCodes := by
  induction t with
  | nil => rfl
  | cons c t ih =>
    rw [List.forall_mem_cons] at ht
    rw [typeText_cons, typeChar_eq_typeCodes hl ht.1, ih ht.2]
    rfl

/-- In every layout without negative numbers, a text none of whose characters is typed as two is
typed, from every report, with the reports and the outcome of pressing the key codes of its
characters in turn (`keycodes`). Where everything before a character was typed and its key codes are
refused, typing fails for the same reason, and nothing is sent for the character. -/
theorem typeText_agrees_with_keyCodes (l : Layout) (hl : l.NonNegative) (t : Text)
    (ht : ∀ c ∈ t, (c.toNat : Int) ∉ l.combined.map Prod.fst) (port : Port KeyReport) :
    l.typeText none t port = t.forM l.typeCodes port ∧
    ∀ before c after fault port', t = before ++ c :: after → l.keyCodes [c] = .error fault →
      l.typeText none before port = .ok () port' →
        l.typeText none t port = .error (.failed fault) port' := by
  have hnone : ∀ c ∈ t, lastEntry l.combined c.toNat = none := fun c hc ↦
    lastEntry_eq_none (ht c hc)
  refine ⟨by rw [typeText_eq_forM_typeCodes hl hnone], ?_⟩
  rintro before c after fault port' rfl hcodes hbefore
  have hc : lastEntry l.combined c.toNat = none := hnone c (by simp)
  have hchar : l.typeChar c = Act.fail fault := by
    rw [typeChar_eq_typeCodes hl hc, typeCodes_of_error hcodes]
  rw [typeText_append, bind_of_ok hbefore, typeText_cons, hchar]
  rfl

/-- A layout in which a character needs both right alt and shift. -/
def smallLayout : Layout where
  table := [0x04, 0x85]
  byCode := [(9, 0x2b)]
  byChar := [('é', 0x96)]
  altGr := ['é']

/-- A shifted letter of the table and one that is found by itself are typed, one without a key is
refused. -/
theorem typeText_agrees_with_keyCodes_small :
    smallLayout.typeText none ['\x01', 'é', 'z'] ⟨.empty, { room := 10 }⟩ =
        ['\x01', 'é', 'z'].forM smallLayout.typeCodes ⟨.empty, { room := 10 }⟩ ∧
      ∃ port, smallLayout.typeText none ['\x01', 'é'] ⟨.empty, { room := 10 }⟩ = .ok () port ∧
        smallLayout.typeText none ['\x01', 'é', 'z'] ⟨.empty, { room := 10 }⟩ =
          .error (.failed (.noKey 'z')) port := by
  have hl : smallLayout.NonNegative := ⟨by simp [smallLayout], by simp [smallLayout]⟩
  have hrun : (smallLayout.typeText none ['\x01', 'é']).run' ⟨.empty, { room := 10 }⟩ =
      some () := by decide +kernel
  have hrefused : smallLayout.keyCodes ['z'] = .error (.noKey 'z') := rfl
  obtain ⟨hsame, hfails⟩ := typeText_agrees_with_keyCodes smallLayout hl ['\x01', 'é', 'z']
    (by simp [smallLayout]) ⟨.empty, { room := 10 }⟩
  refine ⟨hsame, ?_⟩
  cases hbefore : smallLayout.typeText none ['\x01', 'é'] ⟨.empty, { room := 10 }⟩ with
  | ok _ port => exact ⟨port, rfl, hfails ['\x01', 'é'] 'z' [] _ port rfl hrefused hbefore⟩
  | error halt port =>
    delta EStateM.run' EStateM.run at hrun
    rw [hbefore] at hrun
    cases hrun

end Deskhand.Hid.Layout
