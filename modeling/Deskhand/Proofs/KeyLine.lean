import Deskhand.Proofs.Calmer
import Deskhand.Proofs.TypedLine

/-!
# Lines that name keys

A line of key names presses the keys in order and releases them in reverse order; every key that
goes down or up is told with one report, and nothing is printed. The exception is a line that begins
with a name that a command begins with as well. There is one such name: a line that begins with
`PRINTSCREEN` prints what follows the sixth character.
-/

namespace Deskhand.Script

open Macro

/-! ### Keys going down and up -/

/-- A key going down or up. -/
inductive Move where
  | down (key : Key)
  | up (key : Key)

/-- The key that moves. -/
def Move.key : Move → Key
  | .down key => key
  | .up key => key

/-- Keys going down in order, and up in reverse order. -/
def chord (keys : List Key) : List Move := keys.map .down ++ keys.reverse.map .up

/-- What the keyboard and the media keypad report. -/
structure Reports where
  keyboard : Hid.KeyReport
  media : Hid.MediaReport

namespace Reports

/-- The reports after a key moved. -/
def after (r : Reports) : Move → Reports
  | .down (.key code) => { r with keyboard := (r.keyboard.press code).1 }
  | .down (.media code) => { r with media := (r.media.press code).1 }
  | .up (.key code) => { r with keyboard := r.keyboard.release code }
  | .up (.media _) => { r with media := r.media.release }

/-- The reports after keys moved one after the other. -/
def afterAll (r : Reports) (moves : List Move) : Reports := moves.foldl after r

/-- The report of the device to which a key belongs. -/
def told (r : Reports) : Key → Event
  | .key _ => .key r.keyboard
  | .media _ => .media r.media

/-- What is told when keys move one after the other. -/
def events (r : Reports) : List Move → List Event
  | [] => []
  | move :: rest => (r.after move).told move.key :: (r.after move).events rest

private theorem events_append (r : Reports) (moves more : List Move) :
    r.events (moves ++ more) = r.events moves ++ (r.afterAll moves).events more := by
  induction moves generalizing r with
  | nil => rfl
  | cons move moves ih => exact congrArg _ (ih (r.after move))

end Reports

/-- The reports of a machine. -/
def Machine.reports (m : Machine) : Reports := ⟨m.keyboard, m.media⟩

/-- The machine after keys moved and every move was told. -/
def Machine.moved (m : Machine) (moves : List Move) : Machine :=
  { m with
    keyboard := (m.reports.afterAll moves).keyboard
    media := (m.reports.afterAll moves).media
    trace := ⟨m.trace.events ++ (m.reports.events moves).toArray, m.trace.room - moves.length⟩ }

/-- The machine after a line was printed. -/
def Machine.printed (m : Machine) (t : Text) : Machine :=
  { m with trace := ⟨m.trace.events.push (.print t), m.trace.room - 1⟩ }

private theorem Machine.moved_single (m : Machine) (move : Move) : m.moved [move] =
    { m with
      keyboard := (m.reports.after move).keyboard
      media := (m.reports.after move).media
      trace := ⟨m.trace.events ++ [(m.reports.after move).told move.key].toArray,
        m.trace.room - 1⟩ } := rfl

/-- Moves add up. -/
theorem Machine.moved_append (m : Machine) (moves more : List Move) :
    m.moved (moves ++ more) = (m.moved moves).moved more := by
  have hall : m.reports.afterAll (moves ++ more) = (m.reports.afterAll moves).afterAll more :=
    List.foldl_append
  have hevents : m.trace.events ++ (m.reports.events (moves ++ more)).toArray =
      m.trace.events ++ (m.reports.events moves).toArray ++
        ((m.reports.afterAll moves).events more).toArray := by
    rw [Reports.events_append]
    simp
  have hroom : m.trace.room - (moves ++ more).length =
      m.trace.room - moves.length - more.length := by
    rw [List.length_append, Nat.sub_add_eq]
  rw [Machine.moved, hall, hevents, hroom]
  rfl

namespace Macro

variable {m : Machine}

/-- A report is replaced and told, if there is room. -/
theorem run_setReport_emit {ρ : Type} {port : Port ρ} (hroom : 0 < port.trace.room) (report : ρ)
    (event : Event) : (do Act.setReport report; Act.emit event : Act ρ Unit) port =
      .ok () ⟨report, ⟨port.trace.events ++ [event].toArray, port.trace.room - 1⟩⟩ := by
  obtain ⟨left, hleft⟩ : ∃ left, port.trace.room = left + 1 := ⟨port.trace.room - 1, by omega⟩
  have hemit : Act.emit event ⟨report, port.trace⟩ =
      .ok () ⟨report, ⟨port.trace.events.push event, left⟩⟩ := by
    unfold Act.emit
    rw [hleft]
  have hset : Act.setReport report port = .ok () ⟨report, port.trace⟩ := rfl
  rw [bind_of_ok hset, hemit, hleft]
  rfl

private theorem exists_press_of_lt (r : Hid.MediaReport) {code : Nat} (h : code < 65536) :
    ∃ report, r.press code = (report, none) := by
  have hlt : (0 ≤ (code : Int) && (code : Int) < 65536) = true := by
    rw [Bool.and_eq_true, decide_eq_true_iff, decide_eq_true_iff]
    omega
  refine ⟨⟨(code : Int).toNat.toUInt16⟩, ?_⟩
  rw [Hid.MediaReport.press, if_pos hlt]

private theorem run_mediaPress {port : Port Hid.MediaReport} {code : Int} {report : Hid.MediaReport}
    (h : port.report.press code = (report, none)) (hroom : 0 < port.trace.room) :
    Hid.Media.press code port =
      .ok () ⟨report, ⟨port.trace.events ++ [Event.media report].toArray,
        port.trace.room - 1⟩⟩ := by
  rw [Hid.Media.press, bind_of_ok (run_get _), h]
  exact run_setReport_emit hroom _ _

private theorem run_keyboardPress {port : Port Hid.KeyReport} {code : Int} {report : Hid.KeyReport}
    (h : port.report.press code = (report, none)) (hroom : 0 < port.trace.room) :
    Hid.Keyboard.press [code] port =
      .ok () ⟨report, ⟨port.trace.events ++ [Event.key report].toArray,
        port.trace.room - 1⟩⟩ := by
  rw [Hid.Keyboard.press, bind_of_ok (run_get _), Hid.KeyReport.pressAll, h]
  exact run_setReport_emit hroom _ _

/-- A key that fits its report goes down, if there is room to tell it. -/
theorem pressKey_eq {key : Key} (hf : key.Fits) (hroom : 0 < m.trace.room) :
    pressKey key m = .ok () (m.moved [.down key]) := by
  cases key with
  | key code =>
    obtain ⟨report, haccepted⟩ : ∃ report, m.keyboard.press code = (report, none) := by
      have hbyte : code.toUInt8.toNat = code := Nat.mod_eq_of_lt hf
      have hnone := Hid.KeyReport.press_byte_accepted m.keyboard code.toUInt8
      rw [hbyte] at hnone
      exact ⟨_, Prod.ext rfl hnone⟩
    have hafter : m.reports.after (.down (.key code)) = ⟨report, m.media⟩ := by
      simp only [Reports.after, Machine.reports, haccepted]
    rw [pressKey, onKeyboard, run_keyboardPress haccepted hroom, Machine.moved_single, hafter]
    rfl
  | media code =>
    obtain ⟨report, haccepted⟩ := exists_press_of_lt m.media hf
    have hafter : m.reports.after (.down (.media code)) = ⟨m.keyboard, report⟩ := by
      simp only [Reports.after, Machine.reports, haccepted]
    rw [pressKey, onMedia, run_mediaPress haccepted hroom, Machine.moved_single, hafter]
    rfl

/-- A key goes up, if there is room to tell it. -/
theorem releaseKey_eq (key : Key) (hroom : 0 < m.trace.room) :
    releaseKey key m = .ok () (m.moved [.up key]) := by
  cases key with
  | key code =>
    have hrelease : Hid.Keyboard.release [(code : Int)] ⟨m.keyboard, m.trace⟩ =
        .ok () ⟨m.keyboard.release code, (m.moved [.up (.key code)]).trace⟩ :=
      run_setReport_emit hroom _ _
    rw [releaseKey, onKeyboard, hrelease]
    rfl
  | media code =>
    have hrelease : Hid.Media.release ⟨m.media, m.trace⟩ =
        .ok () ⟨m.media.release, (m.moved [.up (.media code)]).trace⟩ :=
      run_setReport_emit hroom _ _
    rw [releaseKey, onMedia, hrelease]
    rfl

/-- If every key moves as told, so do keys one after the other. -/
theorem forM_moved {act : Key → Macro Unit} {move : Key → Move} {keys : List Key}
    (h : ∀ key ∈ keys, ∀ m : Machine, 0 < m.trace.room → act key m = .ok () (m.moved [move key]))
    (hroom : keys.length ≤ m.trace.room) :
    keys.forM act m = .ok () (m.moved (keys.map move)) := by
  induction keys generalizing m with
  | nil =>
    have hnone : m.moved [] = m := by
      have hevents : m.trace.events ++ (m.reports.events []).toArray = m.trace.events :=
        Array.append_empty
      rw [Machine.moved, hevents]
      rfl
    rw [List.map_nil, hnone]
    rfl
  | cons key keys ih =>
    rw [List.length_cons] at hroom
    have hleft : keys.length ≤ (m.moved [move key]).trace.room := by
      change keys.length ≤ m.trace.room - 1
      omega
    change (act key >>= fun _ ↦ keys.forM act) m = _
    rw [bind_of_ok (h key List.mem_cons_self m (by omega)),
      ih (fun key hk ↦ h key (List.mem_cons_of_mem _ hk)) hleft, ← Machine.moved_append]
    rfl

/-- A line is printed, if there is room. -/
theorem print_printed (hroom : 0 < m.trace.room) (t : Text) : print t m = .ok () (m.printed t) := by
  obtain ⟨left, hleft⟩ : ∃ left, m.trace.room = left + 1 := ⟨m.trace.room - 1, by omega⟩
  have hemit : Act.emit (.print t) ⟨m.media, m.trace⟩ =
      .ok () ⟨m.media, ⟨m.trace.events.push (.print t), m.trace.room - 1⟩⟩ := by
    unfold Act.emit
    rw [hleft]
    rfl
  rw [print, onMedia, hemit]
  rfl

/-- Keys that fit their reports are pressed in order and released in reverse order. -/
theorem pressKeys_eq {keys : List Key} (hf : ∀ key ∈ keys, key.Fits)
    (hroom : 2 * keys.length ≤ m.trace.room) :
    (do keys.forM pressKey; keys.reverse.forM releaseKey : Macro Unit) m =
      .ok () (m.moved (chord keys)) := by
  have hleft : keys.reverse.length ≤ (m.moved (keys.map .down)).trace.room := by
    change keys.reverse.length ≤ m.trace.room - (keys.map Move.down).length
    rw [List.length_reverse, List.length_map]
    omega
  have hpress : keys.forM pressKey m = .ok () (m.moved (keys.map .down)) :=
    forM_moved (fun key hk _ ↦ pressKey_eq (hf key hk)) (by omega)
  have hrelease : keys.reverse.forM releaseKey (m.moved (keys.map .down)) =
      .ok () ((m.moved (keys.map .down)).moved (keys.reverse.map .up)) :=
    forM_moved (fun key _ _ ↦ releaseKey_eq key) hleft
  rw [bind_of_ok hpress, hrelease, ← Machine.moved_append]
  rfl

end Macro

/-! ### Lines without a command -/

/-- The words by which a line is told to hold a command. -/
def Command.openers : List Text :=
  (["INJECT_MOD", "REM_BLOCK", "REM", "HOLD", "RELEASE", "DELAY", "STRINGLN", "STRING", "PRINT",
    "IMPORT", "DEFAULT_DELAY", "DEFAULTDELAY", "LED", "WAIT_FOR_BUTTON_PRESS", "VAR", "$",
    "DEFINE", "FUNCTION", "WHILE", "IF", "END_IF", "RESET"] : List Text) ++
  Command.randoms.map fun entry ↦ entry.1.toList

/-- A line in upper case that begins with none of the words holds no command. -/
theorem Command.ofLine_eq_other {line : Text} (hupper : Text.upper line = line)
    (h : ∀ word ∈ Command.openers, Text.startsWith line word = false) :
    Command.ofLine line = .other line := by
  have hne : ∀ word ∈ Command.openers, (line == word) = false := by
    intro word hw
    rw [beq_eq_false_iff_ne]
    rintro rfl
    have hself : Text.startsWith line line = true := (Text.startsWith_iff _ _).mpr ⟨[], by simp⟩
    rw [h _ hw] at hself
    exact Bool.false_ne_true hself
  have hrandom : Command.randoms.find? (fun entry ↦ entry.1.toList == line) = none := by
    rw [List.find?_eq_none]
    intro entry he heq
    have hmem : entry.1.toList ∈ Command.openers :=
      List.mem_append_right _ (List.mem_map_of_mem he)
    have hno := hne _ hmem
    rw [eq_of_beq heq, beq_self_eq_true] at hno
    exact Bool.false_ne_true hno.symm
  simp only [Command.openers, List.cons_append, List.nil_append, List.mem_cons,
    forall_eq_or_imp] at h hne
  simp only [Command.ofLine, hupper, h, hne, hrandom, Bool.false_eq_true, if_false]

/-! ### Lines of key names -/

/-- The names that scripts have for keys. -/
def keyTable : List (Text × Key) :=
  scriptKeys.map (fun entry ↦ (entry.1.toList, .key entry.2)) ++
    scriptMediaKeys.map fun entry ↦ (entry.1.toList, .media entry.2)

/-- The line that names keys. -/
def keyLine (entries : List (Text × Key)) : Text := Text.join " " (entries.map Prod.fst)

/-- The name whose key no line can press first. -/
def printScreen : Text := "PRINTSCREEN"

/-- Every name stands for its key and is written with capital letters, digits and underlines
alone. -/
theorem keyTable_names : ∀ entry ∈ keyTable, Key.ofName? entry.1 = some entry.2 ∧
    entry.1.all (fun c ↦ '0' ≤ c && c ≤ '_') = true ∧ entry.1.isEmpty = false := by
  decide +kernel

private theorem keyTable_openers : ∀ entry ∈ keyTable, entry.1 ≠ printScreen →
    ∀ word ∈ Command.openers, Text.startsWith entry.1 word = false := by
  decide +kernel

private theorem keyTable_controls : ∀ entry ∈ keyTable, Text.startsWith entry.1 "REPEAT" = false ∧
    Text.startsWith entry.1 "RESTART_PAYLOAD" = false ∧
    Text.startsWith entry.1 "STOP_PAYLOAD" = false := by
  decide

private theorem space_not_mem_openers : ∀ word ∈ Command.openers, ' ' ∉ word := by
  decide

private theorem keyLine_cons (entry : Text × Key) (entries : List (Text × Key)) :
    keyLine (entry :: entries) = entry.1 ++ entries.flatMap fun entry ↦ ' ' :: entry.1 := by
  induction entries generalizing entry with
  | nil => simp [keyLine, Text.join, List.intercalate]
  | cons next entries ih =>
    have hjoin : keyLine (entry :: next :: entries) =
        entry.1 ++ ' ' :: keyLine (next :: entries) := by
      simp [keyLine, Text.join, List.intercalate]
    rw [hjoin, ih next]
    rfl

/-- What stands before a blank is one piece. -/
theorem splitFrom_append {word : Text} (hword : ' ' ∉ word) (piece rest : Text) :
    Text.splitFrom " " piece 0 (word ++ rest) =
      Text.splitFrom " " (word.reverse ++ piece) 0 rest := by
  induction word generalizing piece with
  | nil => rfl
  | cons c word ih =>
    have hc : (' ' == c) = false :=
      beq_eq_false_iff_ne.mpr fun he ↦ hword (he ▸ List.mem_cons_self)
    have hnot : ¬ " ".toList.isPrefixOf (c :: (word ++ rest)) = true := by
      simp [List.isPrefixOf, hc]
    rw [List.cons_append, Text.splitFrom, if_neg hnot,
      ih fun hm ↦ hword (List.mem_cons_of_mem c hm)]
    simp

section Names

variable {entry : Text × Key} {entries : List (Text × Key)}

private theorem le_of_mem_name (h : entry ∈ keyTable) {c : Char} (hc : c ∈ entry.1) :
    '0' ≤ c ∧ c ≤ '_' := by
  have hall := List.all_eq_true.mp (keyTable_names entry h).2.1 c hc
  simpa using hall

private theorem space_not_mem_name (h : entry ∈ keyTable) : ' ' ∉ entry.1 := fun hc ↦
  absurd (le_of_mem_name h hc).1 (by decide)

/-- A text without small letters is written in upper case. -/
theorem upper_eq_self {t : Text} (h : ∀ c ∈ t, c ≤ '_') : Text.upper t = t := by
  have hchar : ∀ c ∈ t, Text.upperChar c = [c] := by
    intro c hc
    have hle : c.toNat ≤ 95 := h c hc
    have hupper : c.toUpper = c := by
      have hsmall : ¬ (c.val ≥ 97 ∧ c.val ≤ 122) := fun ⟨hl, _⟩ ↦ by
        have : 97 ≤ c.toNat := hl
        omega
      exact dif_neg hsmall
    rw [Text.upperChar, if_pos (by omega), hupper]
  rw [Text.upper, List.flatMap_congr hchar, List.flatMap_singleton']

private theorem startsWith_keyLine {word : Text} (hword : ' ' ∉ word) :
    Text.startsWith (keyLine (entry :: entries)) word = Text.startsWith entry.1 word := by
  rw [keyLine_cons]
  refine Text.startsWith_append_of_not_mem hword ?_ entry.1
  intro d hd
  cases entries with
  | nil => cases hd
  | cons next entries => exact (Option.some.inj hd).symm

private theorem ofLine_printScreen (hfirst : entry.1 = printScreen) :
    Command.ofLine (keyLine (entry :: entries)) = .print ((keyLine (entry :: entries)).drop 6) := by
  rw [keyLine_cons, hfirst]
  rfl

variable (hkeys : ∀ e ∈ entry :: entries, e ∈ keyTable)

include hkeys

private theorem eq_space_or_of_mem_keyLine {c : Char} (hc : c ∈ keyLine (entry :: entries)) :
    c = ' ' ∨ '0' ≤ c ∧ c ≤ '_' := by
  rw [keyLine_cons, List.mem_append, List.mem_flatMap] at hc
  rcases hc with hc | ⟨e, he, hc⟩
  · exact .inr (le_of_mem_name (hkeys entry List.mem_cons_self) hc)
  · rcases List.mem_cons.mp hc with rfl | hc
    · exact .inl rfl
    · exact .inr (le_of_mem_name (hkeys e (List.mem_cons_of_mem _ he)) hc)

private theorem upper_keyLine :
    Text.upper (keyLine (entry :: entries)) = keyLine (entry :: entries) := by
  refine upper_eq_self fun c hc ↦ ?_
  rcases eq_space_or_of_mem_keyLine hkeys hc with rfl | hc
  · decide
  · exact hc.2

/-- A line of names ends as its last name does. -/
theorem getLast?_keyLine {c : Char} (hc : c ∈ (keyLine (entry :: entries)).getLast?) :
    '0' ≤ c ∧ c ≤ '_' := by
  induction entries generalizing entry with
  | nil =>
    rw [keyLine_cons, List.flatMap_nil, List.append_nil] at hc
    exact le_of_mem_name (hkeys entry List.mem_cons_self) (List.mem_of_mem_getLast? hc)
  | cons next entries ih =>
    have hnext := (keyTable_names next (hkeys next (by simp))).2.2
    have hne : keyLine (next :: entries) ≠ [] := by
      rw [keyLine_cons]
      intro h
      simp [(List.append_eq_nil_iff.mp h).1] at hnext
    have hline : keyLine (entry :: next :: entries) =
        (entry.1 ++ [' ']) ++ keyLine (next :: entries) := by
      simp [keyLine_cons]
    rw [hline, List.getLast?_append_of_ne_nil _ hne] at hc
    exact ih (fun e he ↦ hkeys e (List.mem_cons_of_mem entry he)) hc

/-- Nothing is trimmed off a line of names. -/
theorem trim_keyLine : Text.trim (keyLine (entry :: entries)) = keyLine (entry :: entries) := by
  have hvisible : ∀ c : Char, '0' ≤ c ∧ c ≤ '_' → Text.isBlank c = false := fun c hc ↦
    Text.isBlank_of_visible ⟨Char.le_trans (by decide) hc.1, Char.le_trans hc.2 (by decide)⟩
  refine Text.trim_eq_self (fun c hc ↦ hvisible c ?_) fun c hc ↦
    hvisible c (getLast?_keyLine hkeys hc)
  have hne := (keyTable_names entry (hkeys entry List.mem_cons_self)).2.2
  have hentry := hkeys entry List.mem_cons_self
  rw [keyLine_cons] at hc
  cases hname : entry.1 with
  | nil => simp [hname] at hne
  | cons d name =>
    rw [hname] at hc
    obtain rfl : d = c := Option.some.inj hc
    exact le_of_mem_name hentry (hname ▸ List.mem_cons_self)

/-- The words of a line of names are the names. -/
theorem splitOn_keyLine :
    Text.splitOn (keyLine (entry :: entries)) " " = (entry :: entries).map Prod.fst := by
  have hpieces : ∀ piece, Text.splitFrom " " piece 0 (keyLine (entry :: entries)) =
      (piece.reverse ++ entry.1) :: entries.map Prod.fst := by
    induction entries generalizing entry with
    | nil =>
      intro piece
      have hword := space_not_mem_name (hkeys entry List.mem_cons_self)
      rw [keyLine_cons, splitFrom_append hword, List.flatMap_nil, Text.splitFrom]
      simp
    | cons next entries ih =>
      intro piece
      have hword := space_not_mem_name (hkeys entry List.mem_cons_self)
      have hline : keyLine (entry :: next :: entries) =
          entry.1 ++ (' ' :: keyLine (next :: entries)) := by
        simp [keyLine_cons]
      have hsplit : ∀ piece rest, Text.splitFrom " " piece 0 (' ' :: rest) =
          piece.reverse :: Text.splitFrom " " [] 0 rest := fun _ _ ↦ rfl
      rw [hline, splitFrom_append hword, hsplit,
        ih (fun e he ↦ hkeys e (List.mem_cons_of_mem entry he)) []]
      simp
  exact hpieces []

/-- A line of names names its keys, and nothing is printed. -/
theorem keysOfLine_keyLine :
    keysOfLine (keyLine (entry :: entries)) = pure ((entry :: entries).map Prod.snd) := by
  have hkeysOf : ∀ es : List (Text × Key), (∀ e ∈ es, e ∈ keyTable) →
      keysOf (es.map Prod.fst) = pure (es.map Prod.snd) := by
    intro es hes
    induction es with
    | nil => rfl
    | cons e es ih =>
      have he := hes e List.mem_cons_self
      have hupper : Text.upper e.1 = e.1 := upper_eq_self fun c hc ↦ (le_of_mem_name he hc).2
      rw [List.map_cons, keysOf, hupper, (keyTable_names e he).1,
        ih fun e he ↦ hes e (List.mem_cons_of_mem _ he)]
      rfl
  have hwords : ((entry :: entries).map Prod.fst).filter (!·.isEmpty) =
      (entry :: entries).map Prod.fst := by
    rw [List.filter_eq_self]
    intro name hname
    obtain ⟨e, he, rfl⟩ := List.mem_map.mp hname
    rw [(keyTable_names e (hkeys e he)).2.2]
    rfl
  rw [keysOfLine, splitOn_keyLine hkeys, hwords, hkeysOf _ hkeys]

private theorem ofLine_keyLine (hfirst : entry.1 ≠ printScreen) :
    Command.ofLine (keyLine (entry :: entries)) = .other (keyLine (entry :: entries)) := by
  refine Command.ofLine_eq_other (upper_keyLine hkeys) fun word hword ↦ ?_
  rw [startsWith_keyLine (space_not_mem_openers word hword)]
  exact keyTable_openers entry (hkeys entry List.mem_cons_self) hfirst word hword

private theorem dollar_not_mem_keyLine : '$' ∉ keyLine (entry :: entries) := by
  intro hc
  rcases eq_space_or_of_mem_keyLine hkeys hc with h | h
  · exact absurd h (by decide)
  · exact absurd h.1 (by decide)

/-- The script of a line of names executes that line and pauses. -/
theorem script_keyLine :
    script (keyLine (entry :: entries)) =
      line (keyLine (entry :: entries)) [] >>= fun _ ↦ defaultPause := by
  have hentry := hkeys entry List.mem_cons_self
  obtain ⟨hrepeat, hrestart, hstop⟩ := keyTable_controls entry hentry
  have hne : keyLine (entry :: entries) ≠ [] := by
    rw [keyLine_cons]
    intro h
    have hname := (keyTable_names entry hentry).2.2
    simp [(List.append_eq_nil_iff.mp h).1] at hname
  have hplain : ∀ c ∈ keyLine (entry :: entries), c ≠ '#' ∧ Text.isLineEnd c = false := by
    intro c hc
    rcases eq_space_or_of_mem_keyLine hkeys hc with rfl | ⟨hfirst, hlast⟩
    · exact ⟨by decide, by decide⟩
    · refine ⟨fun h ↦ absurd (h ▸ hfirst) (by decide), ?_⟩
      have hge : 48 ≤ c.toNat := hfirst
      have hle : c.toNat ≤ 95 := hlast
      simp only [Text.isLineEnd, Bool.or_eq_false_iff, Bool.and_eq_false_iff,
        decide_eq_false_iff_not, beq_eq_false_iff_ne]
      omega
  have htext : withoutComment (keyLine (entry :: entries)) = keyLine (entry :: entries) := by
    have hall : (keyLine (entry :: entries)).takeWhile (· != '#') = keyLine (entry :: entries) := by
      rw [List.takeWhile_eq_self_iff]
      intro c hc
      simpa using (hplain c hc).1
    rw [withoutComment, hall, trim_keyLine hkeys]
  have hlines := Text.lines_of_not_isLineEnd hne fun c hc ↦ (hplain c hc).2
  refine script_eq_line hlines htext hne ?_ ?_ ?_
  · rwa [startsWith_keyLine (by decide)]
  · rwa [startsWith_keyLine (by decide)]
  · rwa [startsWith_keyLine (by decide)]

section Fresh

variable (seed : UInt64) {draws room : Nat} (hd : 0 < draws) (rest : List Text)

include hd

private theorem line_keyLine_eq :
    line (keyLine (entry :: entries)) rest (Machine.fresh seed room draws) =
      perform draws (execute draws) rest (Command.ofLine (keyLine (entry :: entries)))
        (Machine.fresh (Random.advance seed) room (draws - 1)) :=
  line_fresh (dollar_not_mem_keyLine hkeys) (trim_keyLine hkeys) hd seed room rest

/-- From a fresh machine, a line of names presses its keys. -/
theorem line_keyLine (hfirst : entry.1 ≠ printScreen) (hroom : 2 * (entries.length + 1) ≤ room) :
    line (keyLine (entry :: entries)) rest (Machine.fresh seed room draws) =
      .ok 0 ((Machine.fresh (Random.advance seed) room (draws - 1)).moved
        (chord ((entry :: entries).map Prod.snd))) := by
  have hfits : ∀ key ∈ (entry :: entries).map Prod.snd, key.Fits := by
    intro key hkey
    obtain ⟨e, he, rfl⟩ := List.mem_map.mp hkey
    exact Key.fits_of_ofName? (keyTable_names e (hkeys e he)).1
  have hpressed := pressKeys_eq (m := Machine.fresh (Random.advance seed) room (draws - 1)) hfits
    (by rw [List.length_map]; exact hroom)
  rw [line_keyLine_eq hkeys seed hd, ofLine_keyLine hkeys hfirst, perform, bind_of_ok (run_get _)]
  change (pressLine _ >>= fun _ ↦ pure 0) _ = _
  rw [pressLine, keysOfLine_keyLine hkeys, pure_bind, bind_of_ok hpressed]
  rfl

/-- From a fresh machine, a line of names that begins like the command that prints does so. -/
theorem line_printScreen (hfirst : entry.1 = printScreen) (hroom : 0 < room) :
    line (keyLine (entry :: entries)) rest (Machine.fresh seed room draws) =
      .ok 0 ((Machine.fresh (Random.advance seed) room (draws - 1)).printed
        ("[SCRIPT]: ".toList ++ (keyLine (entry :: entries)).drop 6)) := by
  have hdollar : '$' ∉ (keyLine (entry :: entries)).drop 6 := fun h ↦
    dollar_not_mem_keyLine hkeys (List.mem_of_mem_drop h)
  have hvariables : replaceVariables ((keyLine (entry :: entries)).drop 6)
      (Machine.fresh (Random.advance seed) room (draws - 1)) =
        .ok ((keyLine (entry :: entries)).drop 6)
          (Machine.fresh (Random.advance seed) room (draws - 1)) := by
    rw [replaceVariables, bind_of_ok (run_get _),
      replaceNames_of_no_dollar hdollar (shown_fresh _ _ _)]
    rfl
  rw [line_keyLine_eq hkeys seed hd, ofLine_printScreen hfirst, perform, bind_of_ok hvariables,
    bind_of_ok (print_printed hroom _)]
  rfl

end Fresh

end Names

/-- From a fresh machine, a line of key names presses the keys in order and releases them in reverse
order, with one report for each and nothing else told, exactly if it does not begin with the one name
that begins like a command (`runScriptLine`). Such a line prints the rest of itself. The script of a
line of key names executes the line and pauses. -/
theorem keyLine_presses_iff {entries : List (Text × Key)} (hne : entries ≠ [])
    (hkeys : ∀ entry ∈ entries, entry ∈ keyTable) (seed : UInt64) {draws room : Nat}
    (hd : 0 < draws) (hroom : 2 * entries.length ≤ room) (rest : List Text) :
    (line (keyLine entries) rest (Machine.fresh seed room draws) =
        .ok 0 ((Machine.fresh (Random.advance seed) room (draws - 1)).moved
          (chord (entries.map Prod.snd))) ↔
      entries.head?.map Prod.fst ≠ some printScreen) ∧
    (entries.head?.map Prod.fst = some printScreen →
      line (keyLine entries) rest (Machine.fresh seed room draws) =
        .ok 0 ((Machine.fresh (Random.advance seed) room (draws - 1)).printed
          ("[SCRIPT]: ".toList ++ (keyLine entries).drop 6))) ∧
    script (keyLine entries) = line (keyLine entries) [] >>= fun _ ↦ defaultPause := by
  obtain ⟨entry, entries, rfl⟩ := List.exists_cons_of_ne_nil hne
  rw [List.length_cons] at hroom
  have hhead : (entry :: entries).head?.map Prod.fst = some entry.1 := rfl
  rw [hhead]
  have hpos : 0 < room := by omega
  have hprint := fun h : some entry.1 = some printScreen ↦
    line_printScreen hkeys seed hd rest (Option.some.inj h) hpos
  refine ⟨⟨fun hline hfirst ↦ ?_, fun hfirst ↦ ?_⟩, hprint, script_keyLine hkeys⟩
  · -- the first event would be both a report and a printed line
    rw [hprint hfirst] at hline
    have hevents := congrArg (·.trace.events.toList.head?) (EStateM.Result.ok.inj hline).2
    simp only [Machine.moved, Array.toList_append] at hevents
    have hfirst : some (Event.print _) = some (Reports.told _ entry.2) := hevents
    cases hkey : entry.2 with
    | key code => simp [hkey, Reports.told] at hfirst
    | media code => simp [hkey, Reports.told] at hfirst
  · exact line_keyLine hkeys seed hd rest (fun h ↦ hfirst (congrArg some h)) hroom

/-- Seven keys and a media key, one of them twice. -/
def manyKeys : List (Text × Key) :=
  [("CTRL".toList, .key 0xe0), ("A".toList, .key 0x04), ("MK_MUTE".toList, .media 0xe2),
    ("B".toList, .key 0x05), ("A".toList, .key 0x04), ("PRINTSCREEN".toList, .key 0x46),
    ("F1".toList, .key 0x3a), ("SPACE".toList, .key 0x2c), ("END".toList, .key 0x4d),
    ("UP".toList, .key 0x52)]

/-- A line of ten names presses and releases each of the keys. -/
theorem keyLine_presses_iff_manyKeys :
    (manyKeys ≠ [] ∧ (∀ entry ∈ manyKeys, entry ∈ keyTable) ∧ 2 * manyKeys.length ≤ 20) ∧
    line (keyLine manyKeys) [] (Machine.fresh 1 20 1) =
      .ok 0 ((Machine.fresh (Random.advance 1) 20 0).moved (chord (manyKeys.map Prod.snd))) := by
  have hne : manyKeys ≠ [] := List.cons_ne_nil _ _
  have hkeys : ∀ entry ∈ manyKeys, entry ∈ keyTable := by decide +kernel
  have hroom : 2 * manyKeys.length ≤ 20 := by decide
  exact ⟨⟨hne, hkeys, hroom⟩,
    (keyLine_presses_iff hne hkeys 1 Nat.one_pos hroom []).1.mpr (by decide)⟩

/-- The name of the key that prints the screen begins like the command that prints, so the line with
that name alone presses nothing: it prints the end of the name. -/
theorem printScreen_printed :
    ("PRINTSCREEN".toList, .key 0x46) ∈ keyTable ∧
    ∃ m, line "PRINTSCREEN" [] (Machine.fresh 1 2 1) = .ok 0 m ∧
      m.trace.events.toList = [.print "[SCRIPT]: CREEN"] ∧
      m.trace.events.toList ≠ (Reports.mk .empty .empty).events (chord [.key 0x46]) := by
  have hmem : (("PRINTSCREEN".toList, .key 0x46) : Text × Key) ∈ keyTable := by decide +kernel
  have hkeys : ∀ e ∈ [(("PRINTSCREEN".toList, .key 0x46) : Text × Key)], e ∈ keyTable := by
    intro e he
    rwa [List.mem_singleton.mp he]
  have hline := line_printScreen hkeys 1 Nat.one_pos [] rfl Nat.two_pos
  refine ⟨hmem, _, hline, rfl, fun h ↦ ?_⟩
  exact absurd (congrArg List.length h) (by decide)

end Deskhand.Script
