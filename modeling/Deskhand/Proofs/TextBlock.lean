import Deskhand.Proofs.Dollarless
import Deskhand.Proofs.SentReports
import Deskhand.Proofs.TypedLine

/-!
# Blocks of text and their lines

A block types its lines one after the other, and so does a script with a line for each of them. But a
block replaces the variables of a line before its defined words, and in its first line only the
variables; a line of its own has the defined words replaced first. So the two send the same reports if
what they type agrees up to the first character that has no key, and only then if no key is down.
-/

namespace Deskhand

namespace Text

/-- Texts without line ends that are joined by line feeds are the lines. -/
theorem lines_join {parts : List Text}
    (h : ∀ t ∈ parts, t ≠ [] ∧ ∀ c ∈ t, isLineEnd c = false) : lines (join "\n" parts) = parts := by
  have hfrom : ∀ (t line rest : Text), (∀ c ∈ t, isLineEnd c = false) →
      linesFrom line false (t ++ '\n' :: rest) = (line.reverse ++ t) :: linesFrom [] false rest := by
    intro t
    induction t with
    | nil =>
      intro line rest _
      simp [linesFrom, isLineEnd]
    | cons c t ih =>
      intro line rest ht
      have hc := ht c List.mem_cons_self
      have hrest := ih (c :: line) rest fun d hd ↦ ht d (List.mem_cons_of_mem c hd)
      simpa [linesFrom, hc] using hrest
  induction parts with
  | nil => rfl
  | cons t parts ih =>
    obtain ⟨hne, ht⟩ := h t List.mem_cons_self
    have hparts := ih fun u hu ↦ h u (List.mem_cons_of_mem t hu)
    cases parts with
    | nil =>
      have hjoin : join "\n" [t] = t := List.append_nil t
      rw [hjoin, lines_of_not_isLineEnd hne ht]
    | cons u parts =>
      have hjoin : join "\n" (t :: u :: parts) = t ++ '\n' :: join "\n" (u :: parts) := rfl
      rw [hjoin, lines, hfrom t [] _ ht]
      exact congrArg (t :: ·) hparts

end Text

namespace Script

open Hid (Layout)

/-! ### Two scripts that type lines -/

/-- The word that types a text and that opens a block. -/
def typeWord (enter : Bool) : Text := if enter then "STRINGLN" else "STRING"

/-- The mark that ends a block. -/
def endMark (enter : Bool) : Text := if enter then "END_STRINGLN" else "END_STRING"

/-- A line that types a text. -/
def typeLine (enter : Bool) (t : Text) : Text := typeWord enter ++ ' ' :: t

/-- The script with a block of lines. -/
def blockScript (enter : Bool) (lines : List Text) : Text :=
  Text.join "\n" (typeWord enter :: (lines ++ [endMark enter]))

/-- The script with a line for each of the lines. -/
def linesScript (enter : Bool) (lines : List Text) : Text :=
  Text.join "\n" (lines.map (typeLine enter))

/-- A text with the names of a table replaced in turn by the texts of their values. -/
def fill (names : Table Value) (t : Text) : Text :=
  names.foldl (fun t (name, value) ↦ Text.replaceAll t name (value.display?.getD [])) t

private theorem fill_cons (name : Text) (value : Value) (rest : Table Value) (t : Text) :
    fill ((name, value) :: rest) t = fill rest (Text.replaceAll t name (value.display?.getD [])) :=
  rfl

/-- A text with the variables replaced in turn. -/
def Machine.filled (m : Machine) (t : Text) : Text := fill m.internals (fill m.variables t)

/-- A text with the defined words replaced. -/
def Machine.defined (m : Machine) (t : Text) : Text :=
  m.defines.foldl (fun line (word, value) ↦ Text.replaceAll line word value) t

/-- A line that may stand in a block: it has something on it, no blanks around it, no number sign and
no dollar sign. What it becomes begins with a character other than a line feed, and not like an end
mark, whether or not defined words are replaced. -/
structure Machine.BlockLine (m : Machine) (line : Text) : Prop where
  nonempty : line ≠ []
  trimmed : Text.trim line = line
  number : '#' ∉ line
  dollar : '$' ∉ line
  oneLine : ∀ c ∈ line, Text.isLineEnd c = false
  begins : ∃ c t, m.filled line = c :: t ∧ c ≠ '\n'
  unmarked : Text.startsWith (m.filled line) "END_STRING" = false
  unmarked' : Text.startsWith (m.defined (m.filled line)) "END_STRING" = false

/-- What a block types for its lines: the variables are replaced, and in all but the first line the
defined words after them. -/
def Machine.blockTexts (m : Machine) : List Text → List Text
  | [] => []
  | line :: rest => m.filled line :: rest.map fun line ↦ m.defined (m.filled line)

/-- What lines of their own type: the defined words are replaced, and then the variables. -/
def Machine.lineTexts (m : Machine) (lines : List Text) : List Text :=
  lines.map fun line ↦ m.filled (m.understood line)

/-- A line that is executed as it stands: it has no comment, is no control word, and has no dollar
sign. -/
structure Plain (text : Text) : Prop where
  uncommented : Macro.withoutComment text = text
  nonempty : text ≠ []
  noRepeat : Text.startsWith text "REPEAT" = false
  noRestart : Text.startsWith text "RESTART_PAYLOAD" = false
  noStop : Text.startsWith text "STOP_PAYLOAD" = false
  dollar : '$' ∉ text

/-- A line that is executed as it stands goes before the lines that it does not take. -/
theorem Plain.runLines_cons [Evaluator] {text : Text} (h : Plain text) (previous : Text)
    (rest : List Text) :
    Macro.runLines previous (text :: rest) = Macro.line text rest >>= fun taken ↦
      Macro.defaultPause >>= fun _ ↦ Macro.runLines text (rest.drop taken) :=
  Macro.runLines_cons h.uncommented h.nonempty h.noRepeat h.noRestart h.noStop previous rest

section Words

variable (enter : Bool)

private theorem ofLine_typeWord : Command.ofLine (typeWord enter) = .typeBlock enter := by
  cases enter <;> rfl

private theorem ofLine_typeLine (t : Text) : Command.ofLine (typeLine enter t) = .type enter t := by
  cases enter <;> rfl

private theorem startsWith_endMark {t : Text} (h : Text.startsWith t "END_STRING" = false) :
    Text.startsWith t (endMark enter) = false := by
  cases enter with
  | false => exact h
  | true =>
    rw [← Bool.not_eq_true, Text.startsWith_iff] at h ⊢
    rintro ⟨rest, rfl⟩
    exact h ⟨"LN".toList ++ rest, rfl⟩

private theorem plain_typeWord : Plain (typeWord enter) := by
  cases enter <;> exact ⟨by decide +kernel, by decide, rfl, rfl, rfl, by decide⟩

private theorem mem_of_mem_typeLine {t : Text} {c : Char} (h : c ∈ typeLine enter t)
    (hc : c ∉ ' ' :: "STRINGLN".toList) : c ∈ t := by
  have hword : typeWord enter <+: "STRINGLN".toList := by cases enter <;> decide
  rcases List.mem_append.mp h with h | h
  · exact absurd (List.mem_cons_of_mem _ (hword.subset h)) hc
  · rcases List.mem_cons.mp h with rfl | h
    · exact absurd List.mem_cons_self hc
    · exact h

private theorem typeWord_infix_endMark : typeWord enter <:+: endMark enter := by
  have hmark : endMark enter = "END_".toList ++ typeWord enter := by cases enter <;> rfl
  rw [hmark]
  exact (List.suffix_append _ _).isInfix

end Words

/-! ### Machines in which lines are typed -/

/-- No defined word has a blank in it, and no defined word and no name of a variable occurs in the
words of a block. -/
structure Machine.Spares (m : Machine) (enter : Bool) : Prop where
  blank : ∀ word ∈ m.defines.keys, ' ' ∉ word
  words : ∀ word ∈ m.defines.keys, ¬ word <:+: endMark enter
  names : ∀ entry ∈ m.variables ++ m.internals, ¬ entry.1 <:+: endMark enter

/-- Every variable can be shown. -/
def Machine.ShowsAll (m : Machine) : Prop :=
  ∀ entry ∈ m.variables ++ m.internals, entry.2.display? ≠ none

/-- Besides, a number can be drawn whatever the random numbers, every variable can be shown, and there
is no default delay. -/
structure Machine.Ready (m : Machine) (enter : Bool) : Prop extends m.Spares enter where
  draws : ∀ random, (m.withRandom random).CanDraw
  shown : m.ShowsAll
  delay : m.defaultDelay = 0

/-- The machine types at all: a number can be drawn for a line, and every variable can be shown. -/
def Machine.Types (m : Machine) : Prop := m.CanDraw ∧ m.ShowsAll

/-- A bound that can be shown stands for no integer, or for one that can be written. -/
def Machine.WritesBounds (m : Machine) : Prop :=
  ∀ name ∈ [minName, maxName], ∀ v n, m.variables.get? name = some v → v.display? ≠ none →
    toInteger v = .ok (.int n) → n.natAbs < Nat.pow 10 Number.digitLimit

section Ready

variable {m m' : Machine} {enter : Bool} {reports : List Hid.KeyReport}

private theorem Machine.Ready.of_sent (h : m.Ready enter) (hs : m.Sent reports m') :
    m'.Ready enter := by
  obtain ⟨random, events, room, rfl, -⟩ := hs
  refine ⟨⟨h.blank, h.words, h.names⟩, fun random ↦ ?_, h.shown, h.delay⟩
  obtain ⟨n, shown, hbounds, hshown⟩ := h.draws random
  exact ⟨n, shown, hbounds, hshown⟩

private theorem lt_pow_of_lt {n k limit : Nat} (h : n < Nat.pow 10 k) (hk : k ≤ limit) :
    n < Nat.pow 10 limit := Nat.lt_of_lt_of_le h (Nat.pow_le_pow_right (by decide) hk)

private theorem lt_digitLimit {n : Nat} (h : n < Nat.pow 10 5) : n < Nat.pow 10 Number.digitLimit :=
  lt_pow_of_lt h (by decide)

/-- Where numbers can be drawn between bounds that can be shown, they can be drawn again. -/
theorem canDraw_withRandom (hw : m.WritesBounds) (ht : m.Types) (random : Random) :
    (m.withRandom random).CanDraw := by
  have hbound : ∀ {name otherwise n}, name ∈ [minName, maxName] →
      otherwise.natAbs < Nat.pow 10 Number.digitLimit →
      toInteger (m.boundValue name otherwise) = .ok (.int n) →
        n.natAbs < Nat.pow 10 Number.digitLimit := by
    intro name otherwise n hname hsmall hn
    unfold Machine.boundValue at hn
    cases hv : m.variables.get? name with
    | none =>
      rw [hv] at hn
      cases hn
      exact hsmall
    | some v =>
      rw [hv, Option.getD_some] at hn
      refine hw name hname v n hv (ht.2 (name, v) ?_) hn
      exact List.mem_append_left _ (mem_of_get? hv)
  obtain ⟨n, shown, ⟨low, high, hlow, hhigh, hle, -⟩, -⟩ := ht.1
  exact (Macro.canDraw_iff_of_toInteger (m := m.withRandom random) hlow hhigh le_rfl
    (hbound (by simp) (lt_digitLimit (by decide)) hlow)
    (hbound (by simp) (lt_digitLimit (by decide)) hhigh)).mpr hle

/-- A text in which no name occurs has no variables in it. -/
theorem filled_eq_self {t : Text} (h : ∀ entry ∈ m.variables ++ m.internals, ¬ entry.1 <:+: t) :
    m.filled t = t := by
  have hfill : ∀ names : Table Value, (∀ entry ∈ names, ¬ entry.1 <:+: t) → fill names t = t := by
    intro names hnames
    induction names with
    | nil => rfl
    | cons entry names ih =>
      rw [fill_cons, Text.replaceAll_of_not_infix (hnames entry List.mem_cons_self)]
      exact ih fun e he ↦ hnames e (List.mem_cons_of_mem _ he)
  rw [Machine.filled, hfill m.variables fun e he ↦ h e (List.mem_append_left _ he),
    hfill m.internals fun e he ↦ h e (List.mem_append_right _ he)]

private theorem defined_of_trim {t : Text} (h : Text.trim t = t) :
    m.defined t = m.understood t := by
  rw [Machine.understood, h]
  rfl

private theorem Machine.Sent.names_eq (hs : m.Sent reports m') :
    m'.variables ++ m'.internals = m.variables ++ m.internals := by
  obtain ⟨random, events, room, rfl, -⟩ := hs
  rfl

private theorem Machine.Sent.understood_eq (hs : m.Sent reports m') :
    m'.understood = m.understood := by
  obtain ⟨random, events, room, rfl, -⟩ := hs
  rfl

/-- Sending reports leaves what becomes of a text in a block. -/
theorem Machine.Sent.defined_eq (hs : m.Sent reports m') (t : Text) :
    m'.defined (m'.filled t) = m.defined (m.filled t) := by
  obtain ⟨random, events, room, rfl, -⟩ := hs
  rfl

private theorem Machine.Sent.blockTexts_eq (hs : m.Sent reports m') :
    m'.blockTexts = m.blockTexts := by
  obtain ⟨random, events, room, rfl, -⟩ := hs
  rfl

private theorem Machine.Sent.lineTexts_eq (hs : m.Sent reports m') :
    m'.lineTexts = m.lineTexts := by
  obtain ⟨random, events, room, rfl, -⟩ := hs
  rfl

private theorem Machine.BlockLine.of_sent {line : Text} (h : m.BlockLine line)
    (hs : m.Sent reports m') :
    m'.BlockLine line := by
  obtain ⟨random, events, room, rfl, -⟩ := hs
  exact ⟨h.nonempty, h.trimmed, h.number, h.dollar, h.oneLine, h.begins, h.unmarked, h.unmarked'⟩

private theorem Machine.BlockLine.trim_typeLine {line : Text} (h : m.BlockLine line) :
    Text.trim (typeLine enter line) = typeLine enter line := by
  have hopener : typeWord enter ≠ [] ∧ ∀ c ∈ (typeWord enter).head?, Text.isBlank c = false := by
    cases enter <;> refine ⟨List.cons_ne_nil _ _, fun c hc ↦ ?_⟩ <;>
      exact Option.some.inj hc ▸ Text.isBlank_of_visible (by decide)
  have hlast : (' ' :: line).getLast? = line.getLast? :=
    List.getLast?_append_of_ne_nil [' '] h.nonempty
  refine Text.trim_append hopener.1 (List.cons_ne_nil _ _) hopener.2 ?_
  rw [hlast]
  exact (Text.ends_of_trim_eq_self h.trimmed).2

/-- A line that types a line of a block is executed as it stands. -/
theorem Machine.BlockLine.plain_typeLine {line : Text} (h : m.BlockLine line) (enter : Bool) :
    Plain (typeLine enter line) := by
  have htake : (typeLine enter line).takeWhile (· != '#') = typeLine enter line := by
    rw [List.takeWhile_eq_self_iff]
    intro c hc
    have hne : c ≠ '#' := by
      rintro rfl
      exact h.number (mem_of_mem_typeLine enter hc (by decide))
    simpa using hne
  have huncommented : Macro.withoutComment (typeLine enter line) = typeLine enter line := by
    rw [Macro.withoutComment, htake, h.trim_typeLine]
  have hdollar : '$' ∉ typeLine enter line := fun hc ↦
    h.dollar (mem_of_mem_typeLine enter hc (by decide))
  cases enter <;> exact ⟨huncommented, List.cons_ne_nil _ _, rfl, rfl, rfl, hdollar⟩

/-- In a line that types a text, defined words are replaced in the text. -/
theorem Machine.Spares.understood_typeLine (h : m.Spares enter) {line : Text}
    (hl : m.BlockLine line) :
    m.understood (typeLine enter line) = typeLine enter (m.understood line) := by
  have hfold : ∀ defines : Table Text,
      (∀ word ∈ defines.keys, ' ' ∉ word ∧ ¬ word <:+: typeWord enter) → ∀ t : Text,
        defines.foldl (fun line entry ↦ Text.replaceAll line entry.1 entry.2) (typeLine enter t) =
          typeLine enter
            (defines.foldl (fun line entry ↦ Text.replaceAll line entry.1 entry.2) t) := by
    intro defines hwords
    induction defines with
    | nil => exact fun _ ↦ rfl
    | cons entry rest ih =>
      intro t
      obtain ⟨hblank, hword⟩ := hwords entry.1 List.mem_cons_self
      have hne : entry.1 ≠ [] := fun hnil ↦ hword (hnil ▸ List.nil_infix)
      rw [List.foldl_cons, typeLine, Text.replaceAll_append_cons hblank hne,
        Text.replaceAll_of_not_infix hword]
      exact ih (fun word hw ↦ hwords word (List.mem_cons_of_mem _ hw)) _
  have hall : ∀ word ∈ m.defines.keys, ' ' ∉ word ∧ ¬ word <:+: typeWord enter := fun word hw ↦
    ⟨h.blank word hw, fun hi ↦ h.words word hw (hi.trans (typeWord_infix_endMark _))⟩
  unfold Machine.understood
  rw [hl.trim_typeLine, hl.trimmed]
  exact hfold m.defines hall line

private theorem Machine.Spares.understood_typeWord (h : m.Spares enter) :
    m.understood (typeWord enter) = typeWord enter := by
  have htrim : Text.trim (typeWord enter) = typeWord enter := by cases enter <;> decide +kernel
  have hspared : ∀ word ∈ m.defines.keys, ¬ word <:+: typeWord enter := fun word hw hi ↦
    h.words word hw (hi.trans (typeWord_infix_endMark enter))
  have hself := understood_of_not_infix (htrim.symm ▸ hspared)
  rw [hself, htrim]

/-- A draw sends nothing. -/
theorem Machine.Sent.withRandom (m : Machine) (random : Random) : m.Sent [] (m.withRandom random) :=
  ⟨random, #[], m.trace.room, by rw [Array.append_empty]; rfl, rfl⟩

namespace Macro

/-- A line without dollar signs is prepared at the cost of a draw, and nothing is sent. -/
theorem transmits_prepare (h : m.CanDraw) {text : Text} (ht : '$' ∉ text) :
    Transmits (prepare text) m (some (m.understood text)) [] 0 1 := by
  obtain ⟨n, shown, hn⟩ := h
  have hnumber : ¬ "$_RANDOM_INT".toList <:+: Text.trim text := fun hi ↦
    ht ((Text.trim_sublist text).subset (hi.subset List.mem_cons_self))
  obtain ⟨random, hnext⟩ : ∃ random, m.random.next = random := ⟨_, rfl⟩
  have hleft : random.draws = m.random.draws - 1 := by
    rw [← hnext]
    rfl
  intro _ hd
  rw [prepare_of_draws hn hd hnumber, hnext]
  refine ⟨m.withRandom random, .ok _ _, .withRandom m random, fun _ ↦ ⟨Nat.le_refl _, ?_⟩⟩
  change m.random.draws ≤ random.draws + 1
  omega

/-- The pause after a line sends nothing, if there is no default delay. -/
theorem transmits_defaultPause (h : m.defaultDelay = 0) :
    Transmits defaultPause m (some ()) [] 1 0 := by
  have hlength : Pause.ofDelay m.defaultDelay = .ok 0 := by
    rw [h]
    decide +kernel
  have hpause : defaultPause m = onMedia (Act.emit (.pause 0)) m := by
    rw [defaultPause, bind_of_ok (run_get m), hlength]
    rfl
  intro hroom _
  rw [hpause]
  unfold onMedia Act.emit
  cases hr : m.trace.room with
  | zero => simp [hr] at hroom
  | succ room =>
    exact ⟨_, .ok _ _, ⟨m.random, #[.pause 0], room, rfl, rfl⟩, fun _ ↦ ⟨Nat.le_refl _, Nat.le_refl _⟩⟩

/-- If every variable can be shown, they are replaced in turn. -/
theorem replaceVariables_of_showsAll (h : m.ShowsAll) (t : Text) :
    replaceVariables t m = .ok (m.filled t) m := by
  have hnames : ∀ names : Table Value, (∀ entry ∈ names, entry.2.display? ≠ none) →
      ∀ t, replaceNames t names m = .ok (fill names t) m := by
    intro names hshown
    induction names with
    | nil => exact fun t ↦ rfl
    | cons entry rest ih =>
      intro t
      obtain ⟨text, ht⟩ := Option.ne_none_iff_exists'.mp (hshown entry List.mem_cons_self)
      have hdisplay : display entry.2 m = .ok text m := by
        rw [display, ht]
        rfl
      rw [replaceNames, bind_of_ok hdisplay, ih fun e he ↦ hshown e (List.mem_cons_of_mem _ he),
        fill_cons, ht, Option.getD_some]
  rw [replaceVariables, bind_of_ok (run_get m),
    bind_of_ok (hnames m.variables (fun e he ↦ h e (List.mem_append_left _ he)) t),
    bind_of_ok (run_get m), hnames m.internals fun e he ↦ h e (List.mem_append_right _ he)]
  rfl

/-- If one cannot be shown, replacing them fails. -/
theorem replaceVariables_of_not_showsAll (h : ¬ m.ShowsAll) (t : Text) :
    ∃ fault, replaceVariables t m = .error (.failed fault) m := by
  unfold Machine.ShowsAll at h
  push Not at h
  obtain ⟨entry, he, hv⟩ := h
  exact replaceVariables_of_display?_eq_none he hv t

/-- A line of a block, once its variables are replaced. -/
theorem typeBlock_of_replaced {first : Bool} {mark line t u : Text} {rest : List Text}
    {m₁ : Machine} (ht : replaceVariables (Text.trim line) m = .ok t m₁)
    (hu : u = if first then t else m₁.defined t) :
    typeBlock enter mark first (line :: rest) m =
      (if Text.startsWith u mark then pure 1
        else typeText u >>= fun _ ↦ (if enter then typeEnter else pure ()) >>= fun _ ↦
          typeBlock enter mark false rest >>= fun taken ↦ pure (taken + 1)) m₁ := by
  have hread : (if first then pure t else replaceDefines t : Macro Text) m₁ = .ok u m₁ := by
    rw [hu]
    cases first <;> rfl
  rw [typeBlock_cons, bind_of_ok ht, bind_of_ok hread]

/-- A block types its lines, and takes them and the end mark. -/
theorem transmits_typeBlock (h : m.Ready enter) {lines : List Text}
    (hl : ∀ l ∈ lines, m.BlockLine l) {texts : List Text} {first : Bool}
    (htexts : texts = if first then m.blockTexts lines else
      lines.map fun line ↦ m.defined (m.filled line))
    (ho : m.Opens (typable enter texts)) :
    Transmits (typeBlock enter (endMark enter) first (lines ++ [endMark enter])) m
      (if texts.all Layout.hasKeys then some (lines.length + 1) else none)
      (Layout.textReports m.keyboard (typable enter texts)) 0 0 := by
  induction lines generalizing m texts first with
  | nil =>
    obtain rfl : texts = [] := by
      rw [htexts]
      cases first <;> rfl
    have htrim : Text.trim (endMark enter) = endMark enter := by cases enter <;> decide +kernel
    have hvariables : replaceVariables (Text.trim (endMark enter)) m = .ok (endMark enter) m := by
      rw [htrim, replaceVariables_of_showsAll h.shown, filled_eq_self h.names]
    have hdefines : endMark enter = if first then endMark enter else m.defined (endMark enter) := by
      cases first with
      | true => rfl
      | false =>
        have hself := understood_of_not_infix (htrim.symm ▸ h.words)
        rw [Machine.understood, htrim] at hself
        exact hself.symm
    have hmark : Text.startsWith (endMark enter) (endMark enter) = true :=
      (Text.startsWith_iff _ _).mpr ⟨[], (List.append_nil _).symm⟩
    unfold Transmits
    rw [List.nil_append, typeBlock_of_replaced hvariables hdefines, hmark, if_pos rfl]
    exact Transmits.pure 1 m 0 0
  | cons l rest ih =>
    have hline := hl l List.mem_cons_self
    have hrest : ∀ u ∈ rest, m.BlockLine u := fun u hu ↦ hl u (List.mem_cons_of_mem l hu)
    obtain ⟨t, ht⟩ : ∃ t, t = if first then m.filled l else m.defined (m.filled l) := ⟨_, rfl⟩
    obtain rfl : texts = t :: rest.map fun line ↦ m.defined (m.filled line) := by
      rw [htexts, ht]
      cases first <;> rfl
    have hvariables : replaceVariables (Text.trim l) m = .ok (m.filled l) m := by
      rw [hline.trimmed]
      exact replaceVariables_of_showsAll h.shown l
    have hmark : Text.startsWith t (endMark enter) = false := by
      rw [ht]
      cases first with
      | true => exact startsWith_endMark enter hline.unmarked
      | false => exact startsWith_endMark enter hline.unmarked'
    unfold Transmits
    rw [List.cons_append, typeBlock_of_replaced hvariables ht, hmark, if_neg Bool.false_ne_true]
    refine transmits_line_bind ho fun m' reports hs ho' ↦ ?_
    have hsame : (rest.map fun line ↦ m.defined (m.filled line)) =
        if false then m'.blockTexts rest else rest.map fun line ↦ m'.defined (m'.filled line) := by
      rw [if_neg Bool.false_ne_true, funext hs.defined_eq]
    have hblock := transmits_map
      (ih (h.of_sent hs) (fun u hu ↦ (hrest u hu).of_sent hs) hsame ho') (· + 1)
    rwa [apply_ite (Option.map (· + 1))] at hblock

private theorem lines_linesScript {lines : List Text} (hl : ∀ l ∈ lines, m.BlockLine l) :
    Text.lines (linesScript enter lines) = lines.map (typeLine enter) := by
  refine Text.lines_join fun t ht ↦ ?_
  obtain ⟨l, hmem, rfl⟩ := List.mem_map.mp ht
  have hword : (' ' :: "STRINGLN".toList).all (!Text.isLineEnd ·) = true := by decide
  refine ⟨by cases enter <;> exact List.cons_ne_nil _ _, fun c hc ↦ ?_⟩
  by_cases hin : c ∈ ' ' :: "STRINGLN".toList
  · simpa using List.all_eq_true.mp hword c hin
  · exact (hl l hmem).oneLine c (mem_of_mem_typeLine enter hc hin)

/-- The script with a block has the lines of the block between its words. -/
theorem lines_blockScript {lines : List Text} (hl : ∀ l ∈ lines, m.BlockLine l) :
    Text.lines (blockScript enter lines) = typeWord enter :: (lines ++ [endMark enter]) := by
  have hword : ∀ t ∈ [typeWord enter, endMark enter],
      t ≠ [] ∧ ∀ c ∈ t, Text.isLineEnd c = false := by
    have hall : ∀ t ∈ [typeWord enter, endMark enter],
        t ≠ [] ∧ t.all (!Text.isLineEnd ·) = true := by cases enter <;> decide
    intro t ht
    exact ⟨(hall t ht).1, by simpa using (hall t ht).2⟩
  refine Text.lines_join fun t ht ↦ ?_
  rcases List.mem_cons.mp ht with rfl | ht
  · exact hword _ List.mem_cons_self
  · rcases List.mem_append.mp ht with ht | ht
    · exact ⟨(hl t ht).nonempty, (hl t ht).oneLine⟩
    · exact hword t (List.mem_cons_of_mem _ ht)

variable [Evaluator]

/-- A command that types a text replaces its variables first. -/
theorem perform_type_eq (fuel : Nat) (execute : Text → List Text → Macro Nat) (rest : List Text)
    (enter : Bool) (t : Text) : perform fuel execute rest (.type enter t) =
      replaceVariables t >>= fun t ↦ typeText t >>= fun _ ↦
        (if enter then typeEnter else pure ()) >>= fun _ ↦ pure 0 := by
  cases enter <;> simp [perform]

/-- A command that opens a block types it up to its end mark. -/
theorem perform_typeBlock (fuel : Nat) (execute : Text → List Text → Macro Nat) (rest : List Text)
    (enter : Bool) : perform fuel execute rest (.typeBlock enter) =
      typeBlock enter (endMark enter) true rest := by
  cases enter <;> rfl

/-- A line that can be drawn for is performed at the cost of a draw. -/
theorem transmits_line (hc : m.CanDraw) {text : Text} (ht : '$' ∉ text) {rest : List Text}
    {β : Type} {next : Nat → Macro β} {value : Option β} {pauses draws : Nat}
    (hn : ∀ m₁, m.Sent [] m₁ → Transmits (perform m.random.draws (execute m.random.draws) rest
      (Command.ofLine (m.understood text)) >>= next) m₁ value reports pauses draws) :
    Transmits (line text rest >>= next) m value reports pauses (draws + 1) := by
  have hline : (line text rest >>= next) m = (prepare text >>= fun text ↦
      perform m.random.draws (execute m.random.draws) rest (Command.ofLine text) >>= next) m := by
    rw [line, bind_assoc, bind_of_ok (run_get m), execute, bind_assoc]
  have hdraw : Transmits (prepare text >>= fun text ↦
      perform m.random.draws (execute m.random.draws) rest (Command.ofLine text) >>= next) m value
      reports pauses (draws + 1) := (transmits_prepare hc ht).draw hn
  unfold Transmits at hdraw ⊢
  rwa [hline]

/-- Lines of their own type their texts. Each costs a draw and a pause. -/
theorem transmits_runLines (h : m.Ready enter) {lines : List Text}
    (hl : ∀ l ∈ lines, m.BlockLine l) (ho : m.Opens (typable enter (m.lineTexts lines)))
    (previous : Text) :
    Transmits (runLines previous (lines.map (typeLine enter))) m
      (if (m.lineTexts lines).all Layout.hasKeys then some false else none)
      (Layout.textReports m.keyboard (typable enter (m.lineTexts lines))) lines.length
      lines.length := by
  induction lines generalizing m previous with
  | nil =>
    rw [List.map_nil, runLines]
    exact Transmits.pure false m 0 0
  | cons l rest ih =>
    have hline := hl l List.mem_cons_self
    have hrest : ∀ u ∈ rest, m.BlockLine u := fun u hu ↦ hl u (List.mem_cons_of_mem l hu)
    have hplain := hline.plain_typeLine enter
    rw [List.map_cons, hplain.runLines_cons]
    have hdraw : m.CanDraw := h.draws m.random
    refine transmits_line hdraw hplain.dollar fun m₁ h₁ ↦ ?_
    have hready := h.of_sent h₁
    have hkeyboard : m₁.keyboard = m.keyboard := h₁.keyboard
    rw [Machine.Opens, ← hkeyboard, ← h₁.lineTexts_eq] at ho
    rw [h.understood_typeLine hline, ofLine_typeLine, perform_type_eq, ← hkeyboard,
      ← h₁.lineTexts_eq, ← h₁.understood_eq]
    unfold Transmits
    rw [bind_assoc, bind_of_ok (replaceVariables_of_showsAll hready.shown _)]
    simp only [bind_assoc, pure_bind]
    refine transmits_line_bind ho fun m₂ reports h₂ ho₂ ↦ ?_
    refine (transmits_defaultPause (hready.of_sent h₂).delay).pause fun m₃ h₃ ↦ ?_
    have hs := h₂.trans h₃
    have hkeyboard' : m₃.keyboard = m₂.keyboard := h₃.keyboard
    have hlines := ih (hready.of_sent hs) (fun u hu ↦ ((hrest u hu).of_sent h₁).of_sent hs)
      (by rw [hs.lineTexts_eq, Machine.Opens, hkeyboard']; exact ho₂) (typeLine enter l)
    rw [hs.lineTexts_eq, hkeyboard'] at hlines
    exact hlines

/-- A script whose lines ask for no restart sends what its lines send. -/
theorem transmits_script {t : Text} {lines : List Text} (ht : Text.lines t = lines) {c : Prop}
    [Decidable c] {pauses draws : Nat}
    (h : Transmits (runLines [] lines) m (if c then some false else none) reports pauses draws) :
    Transmits (script t) m (if c then some () else none) reports pauses draws := by
  unfold Transmits
  rw [script, bind_of_ok (run_get m), ht, runAgain]
  by_cases hc : c
  · rw [if_pos hc] at h ⊢
    exact h.finish rfl
  · rw [if_neg hc] at h ⊢
    exact h.bind_none

private theorem transmits_linesScript (h : m.Ready enter) {lines : List Text}
    (hl : ∀ l ∈ lines, m.BlockLine l) (ho : m.Opens (typable enter (m.lineTexts lines))) :
    Transmits (script (linesScript enter lines)) m
      (if (m.lineTexts lines).all Layout.hasKeys then some () else none)
      (Layout.textReports m.keyboard (typable enter (m.lineTexts lines))) lines.length
      lines.length :=
  transmits_script (lines_linesScript hl) (transmits_runLines h hl ho [])

/-- The script with a block types the texts of the block. It costs a draw and a pause. -/
theorem transmits_blockScript (h : m.Ready enter) {lines : List Text}
    (hl : ∀ l ∈ lines, m.BlockLine l) (ho : m.Opens (typable enter (m.blockTexts lines))) :
    Transmits (script (blockScript enter lines)) m
      (if (m.blockTexts lines).all Layout.hasKeys then some () else none)
      (Layout.textReports m.keyboard (typable enter (m.blockTexts lines))) 1 1 := by
  have hplain := plain_typeWord enter
  refine transmits_script (lines_blockScript hl) ?_
  rw [hplain.runLines_cons]
  have hdraw : m.CanDraw := h.draws m.random
  refine transmits_line hdraw hplain.dollar fun m₁ h₁ ↦ ?_
  have hkeyboard : m₁.keyboard = m.keyboard := h₁.keyboard
  have htexts : m.blockTexts lines = if true then m₁.blockTexts lines else
      lines.map fun line ↦ m₁.defined (m₁.filled line) := by
    rw [h₁.blockTexts_eq]
    rfl
  have hblock := transmits_typeBlock (h.of_sent h₁) (fun l hmem ↦ (hl l hmem).of_sent h₁) htexts
    (by rw [Machine.Opens, hkeyboard]; exact ho)
  rw [hkeyboard] at hblock
  rw [h.understood_typeWord, ofLine_typeWord, perform_typeBlock]
  by_cases hkeys : (m.blockTexts lines).all Layout.hasKeys = true
  · rw [if_pos hkeys] at hblock ⊢
    rw [← List.append_nil (Layout.textReports _ _)]
    refine hblock.bind fun m₂ h₂ ↦ ?_
    have hdelay := ((h.of_sent h₁).of_sent h₂).delay
    refine (transmits_defaultPause hdelay).pause fun m₃ _ ↦ ?_
    have hdrop : (lines ++ [endMark enter]).drop (lines.length + 1) = [] :=
      List.drop_eq_nil_of_le (by simp)
    rw [hdrop, runLines]
    exact Transmits.pure false m₃ 0 0
  · rw [if_neg hkeys] at hblock ⊢
    exact hblock.bind_none.mono (Nat.zero_le _) (Nat.zero_le _)

/-! ### Machines in which nothing is typed -/

/-- Where no number can be drawn or a variable cannot be shown, a line that shows variables before
anything else sends nothing. -/
theorem transmits_line_of_not_types (h : ¬ m.Types) {text : Text} (hp : Plain text)
    {rest : List Text} (hshows : ∀ fuel execute, ∃ t next, perform fuel execute rest
      (Command.ofLine (m.understood text)) = replaceVariables t >>= next) :
    Transmits (line text rest) m none [] 0 1 := by
  by_cases hc : m.CanDraw
  · obtain ⟨entry, he, hv⟩ : ∃ entry ∈ m.variables ++ m.internals, entry.2.display? = none := by
      refine Classical.byContradiction fun hall ↦ h ⟨hc, fun entry he hv ↦ hall ⟨entry, he, hv⟩⟩
    rw [← bind_pure (line text rest)]
    refine transmits_line hc hp.dollar fun m₁ h₁ ↦ ?_
    rw [← h₁.names_eq] at he
    obtain ⟨t, next, hfirst⟩ := hshows m.random.draws (execute m.random.draws)
    obtain ⟨fault, hfault⟩ := replaceVariables_of_display?_eq_none he hv t
    rw [bind_pure, hfirst]
    intro _ _
    rw [bind_of_error hfault]
    exact ⟨m₁, .failed fault m₁, .refl m₁, fun h ↦ absurd rfl h⟩
  · intro _ hd
    obtain ⟨fault, random, hp⟩ := prepare_fruitless hc hd text
    rw [line_eq_bind, bind_of_error hp]
    exact ⟨_, .failed _ _, .withRandom m random, fun h ↦ absurd rfl h⟩

private theorem transmits_script_of_line {t text : Text} {rest : List Text}
    (ht : Text.lines t = text :: rest) (hp : Plain text)
    (h : Transmits (line text rest) m none reports 0 1) :
    Transmits (script t) m none reports 0 1 := by
  have hlines : Transmits (runLines [] (text :: rest)) m (if False then some false else none)
      reports 0 1 := by
    rw [hp.runLines_cons, if_neg id]
    exact h.bind_none
  have hscript := transmits_script ht hlines
  rwa [if_neg id] at hscript

private theorem transmits_blockScript_of_not_types (h : ¬ m.Types) (hs : m.Spares enter)
    {lines : List Text} (hl : ∀ l ∈ lines, m.BlockLine l) :
    Transmits (script (blockScript enter lines)) m none [] 0 1 := by
  have hplain := plain_typeWord enter
  refine transmits_script_of_line (lines_blockScript hl) hplain ?_
  refine transmits_line_of_not_types h hplain fun fuel execute ↦ ?_
  rw [hs.understood_typeWord, ofLine_typeWord, perform_typeBlock]
  cases lines with
  | nil => exact ⟨_, _, typeBlock_cons _ _ _ _ _⟩
  | cons l rest => exact ⟨_, _, typeBlock_cons _ _ _ _ _⟩

private theorem transmits_linesScript_of_not_types (h : ¬ m.Types) (hs : m.Spares enter) {l : Text}
    {rest : List Text} (hl : ∀ u ∈ l :: rest, m.BlockLine u) :
    Transmits (script (linesScript enter (l :: rest))) m none [] 0 1 := by
  have hline := hl l List.mem_cons_self
  refine transmits_script_of_line (lines_linesScript hl) (hline.plain_typeLine enter) ?_
  refine transmits_line_of_not_types h (hline.plain_typeLine enter) fun fuel execute ↦ ?_
  rw [hs.understood_typeLine hline, ofLine_typeLine, perform_type_eq]
  exact ⟨_, _, rfl⟩

end Macro

end Ready

/-! ### Blocks and their lines -/

/-- Two runs from a machine come to an end, well or not. They have sent the same key reports and left
the same reports. -/
structure SameReports (m : Machine) (r r' : EStateM.Result (Halt Fault) Machine Unit) : Prop where
  ended : Watched.haltOf r ≠ some .exhausted ∧ Watched.haltOf r' ≠ some .exhausted
  sent : keyReports m.trace.events.size (Watched.machineOf r).trace =
    keyReports m.trace.events.size (Watched.machineOf r').trace
  keyboard : (Watched.machineOf r).keyboard = (Watched.machineOf r').keyboard
  media : (Watched.machineOf r).media = (Watched.machineOf r').media

/-- If the machine types at all, a block and lines of their own type the same. -/
def Machine.TypesAlike (m : Machine) (enter : Bool) (lines : List Text) : Prop :=
  m.Types → typable enter (m.blockTexts lines) = typable enter (m.lineTexts lines)

/-- There is room for the reports and the pause of a block, and for those of its lines, and there is a
number left to draw for each of the lines. -/
structure Machine.HasRoom (m : Machine) (enter : Bool) (lines : List Text) : Prop where
  forBlock : (Layout.textReports m.keyboard (typable enter (m.blockTexts lines))).length + 1 ≤
    m.trace.room
  forLines : (Layout.textReports m.keyboard (typable enter (m.lineTexts lines))).length +
    lines.length ≤ m.trace.room
  draws : lines.length ≤ m.random.draws

section Blocks

variable {m : Machine} {enter : Bool} {reports reports' : List Hid.KeyReport}

/-- Runs that have sent reports leave the same reports exactly if they have sent the same. -/
theorem sameReports_iff {r r' : EStateM.Result (Halt Fault) Machine Unit}
    {value value' : Option Unit} {n n' : Machine} (h : Macro.Yields r value n ∧ m.Sent reports n)
    (h' : Macro.Yields r' value' n' ∧ m.Sent reports' n') :
    SameReports m r r' ↔ reports = reports' := by
  have hends : ∀ {r : EStateM.Result (Halt Fault) Machine Unit} {value : Option Unit} {n : Machine},
      Macro.Yields r value n → Watched.haltOf r ≠ some .exhausted ∧ Watched.machineOf r = n := by
    intro r value n hr
    cases hr with
    | ok a => exact ⟨fun h ↦ (nomatch h), rfl⟩
    | failed fault => exact ⟨fun h ↦ (nomatch h), rfl⟩
  obtain ⟨hne, hn⟩ := hends h.1
  obtain ⟨hne', hn'⟩ := hends h'.1
  constructor
  · intro hs
    rw [← h.2.keyReports, ← h'.2.keyReports, ← hn, ← hn']
    exact hs.sent
  · rintro rfl
    refine ⟨⟨hne, hne'⟩, ?_, ?_, ?_⟩
    · rw [hn, hn', h.2.keyReports, h'.2.keyReports]
    · rw [hn, hn', h.2.keyboard, h'.2.keyboard]
    · obtain ⟨random, events, room, hm, -⟩ := h.2
      obtain ⟨random', events', room', hm', -⟩ := h'.2
      rw [hn, hn', hm, hm']

/-- A line in which no name of a variable occurs may stand in a block if it does not begin like an end
mark. -/
theorem Machine.BlockLine.of_names {line : Text} (hne : line ≠ []) (ht : Text.trim line = line)
    (hs : ∀ c ∈ line, c ≠ '#' ∧ c ≠ '$' ∧ Text.isLineEnd c = false)
    (hn : ∀ entry ∈ m.variables ++ m.internals, ¬ entry.1 <:+: line)
    (hm : Text.startsWith line "END_STRING" = false)
    (hm' : Text.startsWith (m.understood line) "END_STRING" = false) : m.BlockLine line := by
  have hself := filled_eq_self hn
  refine ⟨hne, ht, fun h ↦ (hs _ h).1 rfl, fun h ↦ (hs _ h).2.1 rfl, fun c hc ↦ (hs c hc).2.2, ?_,
    by rw [hself, hm], by rw [hself, defined_of_trim ht, hm']⟩
  obtain ⟨c, t, rfl⟩ := List.exists_cons_of_ne_nil hne
  refine ⟨c, t, hself, ?_⟩
  rintro rfl
  exact absurd (hs _ List.mem_cons_self).2.2 (by decide)

private theorem opens_blockTexts {l : Text} (hl : m.BlockLine l) (rest : List Text) :
    m.Opens (typable enter (m.blockTexts (l :: rest))) := by
  refine .inr fun hhead ↦ ?_
  obtain ⟨c, t, hfirst, hc⟩ := hl.begins
  unfold typable Layout.keyed at hhead
  rw [Machine.blockTexts, List.flatMap_cons, hfirst, List.cons_append, List.cons_append,
    List.takeWhile_cons] at hhead
  split at hhead
  · exact hc (Option.some.inj hhead)
  · cases hhead

/-- If defined words leave the first line alone, and no name of a variable occurs in a line, whether or
not defined words are replaced, the lines are typed alike. -/
theorem typesAlike_of_understood {l : Text} {rest : List Text}
    (ht : ∀ u ∈ l :: rest, Text.trim u = u) (hl : m.understood l = l)
    (hn : ∀ u ∈ l :: rest, ∀ entry ∈ m.variables ++ m.internals,
      ¬ entry.1 <:+: u ∧ ¬ entry.1 <:+: m.understood u) : m.TypesAlike enter (l :: rest) := by
  intro _
  have hline : ∀ u ∈ l :: rest, m.filled (m.understood u) = m.understood u := fun u hu ↦
    filled_eq_self fun entry he ↦ (hn u hu entry he).2
  have hblock : ∀ u ∈ l :: rest, m.filled u = u := fun u hu ↦
    filled_eq_self fun entry he ↦ (hn u hu entry he).1
  have htexts : m.lineTexts (l :: rest) = m.blockTexts (l :: rest) := by
    rw [Machine.lineTexts, List.map_congr_left hline, Machine.blockTexts, List.map_cons, hl,
      hblock l List.mem_cons_self]
    refine congrArg (l :: ·) (List.map_congr_left fun u hu ↦ ?_)
    rw [hblock u (List.mem_cons_of_mem _ hu), defined_of_trim (ht u (List.mem_cons_of_mem _ hu))]
  rw [htexts]

/-- In every machine with no default delay, a block whose words are spared sends the same key reports
as its lines if what they type agrees up to the first character without a key, and with no key down
only then (`parseLine`). -/
theorem block_sends_as_lines_iff [Evaluator] (hdelay : m.defaultDelay = 0) (hs : m.Spares enter)
    (hw : m.WritesBounds) {l : Text} {rest : List Text} (hl : ∀ u ∈ l :: rest, m.BlockLine u)
    (hroom : m.HasRoom enter (l :: rest)) :
    (m.TypesAlike enter (l :: rest) → SameReports m
      (Macro.script (blockScript enter (l :: rest)) m)
      (Macro.script (linesScript enter (l :: rest)) m)) ∧
    (m.keyboard = .empty → SameReports m
      (Macro.script (blockScript enter (l :: rest)) m)
      (Macro.script (linesScript enter (l :: rest)) m) → m.TypesAlike enter (l :: rest)) ∧
    (m.understood l = l → (∀ u ∈ l :: rest, ∀ entry ∈ m.variables ++ m.internals,
      ¬ entry.1 <:+: u ∧ ¬ entry.1 <:+: m.understood u) → m.TypesAlike enter (l :: rest)) := by
  have hopens : m.Opens (typable enter (m.blockTexts (l :: rest))) :=
    opens_blockTexts (hl l List.mem_cons_self) rest
  have hready (htypes : m.Types) : m.Ready enter :=
    ⟨hs, canDraw_withRandom hw htypes, htypes.2, hdelay⟩
  have hone : 1 ≤ (l :: rest).length := Nat.le_add_left 1 rest.length
  refine ⟨fun halike ↦ ?_, fun hkeyboard hsame htypes ↦ ?_,
    typesAlike_of_understood fun u hu ↦ (hl u hu).trimmed⟩
  · by_cases htypes : m.Types
    · have hblock := Macro.transmits_blockScript (hready htypes) hl hopens
      rw [halike htypes] at hopens
      have hlines := Macro.transmits_linesScript (hready htypes) hl hopens
      obtain ⟨n, hn, hsent, -⟩ := hblock hroom.forBlock (hone.trans hroom.draws)
      obtain ⟨n', hn', hsent', -⟩ := hlines hroom.forLines hroom.draws
      exact (sameReports_iff ⟨hn, hsent⟩ ⟨hn', hsent'⟩).mpr (by rw [halike htypes])
    · have hblock := Macro.transmits_blockScript_of_not_types htypes hs hl
      have hlines := Macro.transmits_linesScript_of_not_types htypes hs hl
      obtain ⟨n, hn, hsent, -⟩ := hblock (Nat.zero_le _) (hone.trans hroom.draws)
      obtain ⟨n', hn', hsent', -⟩ := hlines (Nat.zero_le _) (hone.trans hroom.draws)
      exact (sameReports_iff ⟨hn, hsent⟩ ⟨hn', hsent'⟩).mpr rfl
  · have hblock := Macro.transmits_blockScript (hready htypes) hl hopens
    have hlines := Macro.transmits_linesScript (hready htypes) hl (.inl hkeyboard)
    obtain ⟨n, hn, hsent, -⟩ := hblock hroom.forBlock (hone.trans hroom.draws)
    obtain ⟨n', hn', hsent', -⟩ := hlines hroom.forLines hroom.draws
    have hreports := (sameReports_iff ⟨hn, hsent⟩ ⟨hn', hsent'⟩).mp hsame
    rw [hkeyboard] at hreports
    exact Layout.keyed_eq_of_textReports hreports

end Blocks

private theorem eq_ok_of_haltOf {r : EStateM.Result (Halt Fault) Machine Unit}
    (h : (Watched.haltOf r).isNone = true) : r = .ok () (Watched.machineOf r) := by
  cases r with
  | ok a m => rfl
  | error halt m => cases h

/-- A machine in which a script has defined a word. -/
def definedFoo : Machine :=
  Watched.machineOf (Job.runAll [.script "DEFINE foo bar".toList] (Machine.fresh 1 100 10))

private theorem runAll_definedFoo :
    Job.runAll [.script "DEFINE foo bar".toList] (Machine.fresh 1 100 10) = .ok () definedFoo :=
  eq_ok_of_haltOf (by decide +kernel)

private theorem tables_definedFoo : definedFoo.defines = [("foo".toList, "bar".toList)] ∧
    definedFoo.variables = [(minName, .int 0), (maxName, .int 65535)] ∧
    definedFoo.internals = [] := by
  have hscripts : ∀ t ∈ ["DEFINE foo bar".toList], '$' ∉ t := by decide
  exact ⟨by decide +kernel, (dollarless_of_runAll hscripts runAll_definedFoo).usual,
    (wordsWhole_of_runAll runAll_definedFoo).internals⟩

private theorem understood_definedFoo (t : Text) :
    definedFoo.understood t = Text.replaceAll (Text.trim t) "foo" "bar" := by
  rw [Machine.understood, tables_definedFoo.1]
  rfl

private theorem not_infix_definedFoo {t : Text} (ht : '$' ∉ t) :
    ∀ entry ∈ definedFoo.variables ++ definedFoo.internals, ¬ entry.1 <:+: t := by
  rw [tables_definedFoo.2.1, tables_definedFoo.2.2]
  have hname : ∀ name : Text, ¬ '$' :: name <:+: t := fun name ↦ Macro.not_infix_of_not_mem ht
  exact List.forall_mem_cons.mpr ⟨hname _, List.forall_mem_singleton.mpr (hname _)⟩

private theorem spares_definedFoo : definedFoo.Spares true := by
  refine ⟨?_, ?_, not_infix_definedFoo (by decide)⟩
  · rw [tables_definedFoo.1]
    decide
  · rw [tables_definedFoo.1]
    exact List.forall_mem_singleton.mpr (Macro.not_infix_of_not_mem (by decide))

/-- The bounds can be written. -/
theorem writesBounds_definedFoo : definedFoo.WritesBounds := by
  have hbound : ∀ {k n : Int}, toInteger (.int k) = .ok (.int n) → k.natAbs < Nat.pow 10 5 →
      n.natAbs < Nat.pow 10 Number.digitLimit := by
    intro k n hn hk
    cases hn
    exact lt_digitLimit hk
  intro name hname v n hv _ hn
  rw [tables_definedFoo.2.1] at hv
  simp only [List.mem_cons, List.not_mem_nil, or_false] at hname
  rcases hname with rfl | rfl
  · cases hv
    exact hbound hn (by decide)
  · cases hv
    exact hbound hn (by decide)

private theorem blockLine_definedFoo {l : Text} (hl : l ≠ [] ∧ Text.trim l = l ∧
    (l.all fun c ↦ c != '#' && (c != '$' && !Text.isLineEnd c)) = true ∧
    Text.startsWith l "END_STRING" = false ∧
    Text.startsWith (Text.replaceAll (Text.trim l) "foo" "bar") "END_STRING" = false) :
    definedFoo.BlockLine l := by
  obtain ⟨hne, ht, hs, hm, hm'⟩ := hl
  have hall : ∀ c ∈ l, c ≠ '#' ∧ c ≠ '$' ∧ Text.isLineEnd c = false := by simpa using hs
  refine .of_names hne ht hall (not_infix_definedFoo fun h ↦ (hall _ h).2.1 rfl) hm ?_
  rwa [understood_definedFoo]

/-- A defined word in the second line of a block is replaced as it is in a line of its own. -/
theorem block_sends_as_lines_iff_second :
    Job.runAll [.script "DEFINE foo bar".toList] (Machine.fresh 1 100 10) = .ok () definedFoo ∧
    definedFoo.understood "a foo" = "a bar" ∧
    SameReports definedFoo
      (Macro.script (blockScript true ["x".toList, "a foo".toList]) definedFoo)
      (Macro.script (linesScript true ["x".toList, "a foo".toList]) definedFoo) := by
  have hfirst : definedFoo.understood "x" = "x" := by
    rw [understood_definedFoo]
    decide +kernel
  have hsecond : definedFoo.understood "a foo" = "a bar" := by
    rw [understood_definedFoo]
    decide +kernel
  have hl : ∀ u ∈ ["x".toList, "a foo".toList], definedFoo.BlockLine u := by
    refine List.forall_mem_cons.mpr ⟨?_, List.forall_mem_singleton.mpr ?_⟩
    · exact blockLine_definedFoo (by decide +kernel)
    · exact blockLine_definedFoo (by decide +kernel)
  have hnames : ∀ u ∈ ["x".toList, "a foo".toList], ∀ entry ∈ definedFoo.variables ++
      definedFoo.internals, ¬ entry.1 <:+: u ∧ ¬ entry.1 <:+: definedFoo.understood u := by
    refine List.forall_mem_cons.mpr
      ⟨fun entry he ↦ ?_, List.forall_mem_singleton.mpr fun entry he ↦ ?_⟩
    · rw [hfirst]
      exact ⟨not_infix_definedFoo (by decide) entry he, not_infix_definedFoo (by decide) entry he⟩
    · rw [hsecond]
      exact ⟨not_infix_definedFoo (by decide) entry he, not_infix_definedFoo (by decide) entry he⟩
  obtain ⟨hsame, -, halike⟩ := block_sends_as_lines_iff (by decide +kernel) spares_definedFoo
    writesBounds_definedFoo hl ⟨by decide +kernel, by decide +kernel, by decide +kernel⟩
  exact ⟨runAll_definedFoo, hsecond, hsame (halike hfirst hnames)⟩

/-- A defined word in the first line of a block is typed as it stands, and replaced in a line of its
own. -/
theorem first_line_typed_as_it_stands :
    Job.runAll [.script "DEFINE foo bar".toList] (Machine.fresh 1 100 10) = .ok () definedFoo ∧
    definedFoo.Spares true ∧ definedFoo.BlockLine "foo" ∧ definedFoo.defaultDelay = 0 ∧
    definedFoo.keyboard = .empty ∧ definedFoo.blockTexts ["foo".toList] = ["foo".toList] ∧
    definedFoo.lineTexts ["foo".toList] = ["bar".toList] ∧
    Watched.haltOf (Macro.script (blockScript true ["foo".toList]) definedFoo) = none ∧
    Watched.haltOf (Macro.script (linesScript true ["foo".toList]) definedFoo) = none ∧
    ¬ SameReports definedFoo (Macro.script (blockScript true ["foo".toList]) definedFoo)
      (Macro.script (linesScript true ["foo".toList]) definedFoo) := by
  have hfoo : definedFoo.understood "foo" = "bar" := by
    rw [understood_definedFoo]
    decide +kernel
  have hfirst : definedFoo.filled "foo" = "foo" := filled_eq_self (not_infix_definedFoo (by decide))
  have hline : definedFoo.filled "bar" = "bar" := filled_eq_self (not_infix_definedFoo (by decide))
  refine ⟨runAll_definedFoo, spares_definedFoo, ?_, by decide +kernel, by decide +kernel, ?_, ?_,
    Option.isNone_iff_eq_none.mp (by decide +kernel), Option.isNone_iff_eq_none.mp (by decide +kernel),
    fun hsame ↦ ?_⟩
  · exact blockLine_definedFoo (by decide +kernel)
  · rw [Machine.blockTexts, hfirst]
    rfl
  · rw [Machine.lineTexts, List.map_singleton, hfoo, hline]
  · exact absurd hsame.sent (by decide +kernel)

end Script

end Deskhand
