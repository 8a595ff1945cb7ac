import Deskhand.Proofs.BoundsIndependence
import Deskhand.Proofs.Decoding
import Mathlib.Data.List.TakeWhile

/-!
# Lines that type a text

A script cuts every line at the first number sign and trims it before the line is executed. So a
line that types a text types the part before a number sign, and where nothing is left of the text it
opens a block instead. Nothing else happens to a text without dollar signs on its way to the
keyboard: it is typed character by character exactly if it has no number sign.
-/

namespace Deskhand

namespace Text

/-- A text without line ends is one line. -/
theorem lines_of_not_isLineEnd {t : Text} (hne : t ≠ []) (h : ∀ c ∈ t, isLineEnd c = false) :
    lines t = [t] := by
  have hfrom : ∀ line, line ≠ [] ∨ t ≠ [] → linesFrom line false t = [line.reverse ++ t] := by
    clear hne
    induction t with
    | nil =>
      intro line hl
      simp_all [linesFrom]
    | cons c t ih =>
      intro line _
      have hc := h c List.mem_cons_self
      have hrest := ih (fun d hd ↦ h d (List.mem_cons_of_mem c hd)) (c :: line)
        (.inl (List.cons_ne_nil c line))
      simpa [linesFrom, hc] using hrest
  exact hfrom [] (.inr hne)

end Text

namespace Script

open Hid (Layout)

/-- The line that types a text. -/
def stringLine (t : Text) : Text := "STRING ".toList ++ t

/-- What a line keeps of the text at its end: the part before a number sign, trimmed. -/
def beforeComment (t : Text) : Text := Text.trimRight (t.takeWhile (· != '#'))

/-- A text on one line that the keyboard can type, with no dollar sign in it and no blank at its
end. -/
structure Typable (t : Text) : Prop where
  nonempty : t ≠ []
  keys : ∀ c ∈ t, Layout.us.HasKey c
  oneLine : ∀ c ∈ t, Text.isLineEnd c = false
  last : ∀ c ∈ t.getLast?, Text.isBlank c = false
  dollar : '$' ∉ t

/-- Whether a text is typable is seen character by character. -/
theorem Typable.of_all {t : Text} (hne : t ≠ [])
    (hall : t.all (fun c ↦ decide (Layout.us.HasKey c) && !Text.isLineEnd c && c != '$') = true)
    (hlast : t.getLast?.all (!Text.isBlank ·) = true) : Typable t := by
  have hchars : ∀ c ∈ t, Layout.us.HasKey c ∧ Text.isLineEnd c = false ∧ c ≠ '$' := by
    intro c hc
    simpa [and_assoc] using List.all_eq_true.mp hall c hc
  refine ⟨hne, fun c hc ↦ (hchars c hc).1, fun c hc ↦ (hchars c hc).2.1, ?_, ?_⟩
  · intro c hc
    rw [Option.mem_def.mp hc] at hlast
    simpa using hlast
  · exact fun h ↦ (hchars _ h).2.2 rfl

private theorem prefix_beforeComment (t : Text) : beforeComment t <+: t := by
  have htake : t.takeWhile (· != '#') <+: t := List.takeWhile_prefix _
  exact (Text.prefix_trimRight _).trans htake

/-- A text is kept as a whole exactly if it has no number sign. -/
theorem beforeComment_eq_self_iff {t : Text} (ht : Typable t) :
    beforeComment t = t ↔ '#' ∉ t := by
  constructor
  · intro h hmem
    rw [← h] at hmem
    simpa using List.mem_takeWhile_imp ((Text.prefix_trimRight _).subset hmem)
  · intro h
    have hall : t.takeWhile (· != '#') = t := by
      rw [List.takeWhile_eq_self_iff]
      intro c hc
      have hne : c ≠ '#' := fun he ↦ h (he ▸ hc)
      simpa using hne
    rw [beforeComment, hall, Text.trimRight_eq_self ht.last]

/-- Nothing is trimmed off the line of a text that does not end with a blank. -/
theorem trim_stringLine {t : Text} (hne : t ≠ []) (h : ∀ c ∈ t.getLast?, Text.isBlank c = false) :
    Text.trim (stringLine t) = stringLine t := by
  have hopener : ∀ c ∈ "STRING ".toList.head?, Text.isBlank c = false := by
    intro c hc
    obtain rfl : 'S' = c := Option.some.inj hc
    exact Text.isBlank_of_visible (by decide)
  exact Text.trim_append (List.cons_ne_nil _ _) hne hopener h

private theorem dollar_not_mem_stringLine {t : Text} (h : '$' ∉ t) : '$' ∉ stringLine t := by
  intro hmem
  rcases List.mem_append.mp hmem with hmem | hmem
  · exact absurd hmem (by decide)
  · exact h hmem

/-- The line is cut where its text is, and loses its blank where nothing of the text is left. -/
theorem withoutComment_stringLine (t : Text) : Macro.withoutComment (stringLine t) =
    if beforeComment t = [] then "STRING".toList else stringLine (beforeComment t) := by
  have htake : (stringLine t).takeWhile (· != '#') =
      "STRING ".toList ++ t.takeWhile (· != '#') := rfl
  have hleft : ∀ u : Text, Text.trimLeft ("STRING ".toList ++ u) = "STRING ".toList ++ u := by
    intro u
    have hs := Text.isBlank_of_visible (c := 'S') (by decide)
    exact List.dropWhile_cons_of_neg (Bool.eq_false_iff.mp hs)
  have hword : Text.trimRight "STRING ".toList = "STRING".toList := by
    have hblank : Text.trimRight [' '] = [] :=
      congrArg List.reverse (List.dropWhile_cons_of_pos Text.isBlank_space)
    have hlast := Text.isBlank_of_visible (c := 'G') (by decide)
    have hself : Text.trimRight "STRING".toList = "STRING".toList :=
      Text.trimRight_eq_self fun c hc ↦ Option.some.inj hc ▸ hlast
    have hend := Text.trimRight_append "STRING".toList [' ']
    rw [if_pos hblank, hself] at hend
    exact hend
  rw [Macro.withoutComment, htake, Text.trim, hleft, Text.trimRight_append, hword]
  rfl

namespace Macro

/-- A line that is neither a repetition nor an end is executed, and pauses. -/
theorem runLines_cons [Evaluator] {raw text : Text} (htext : withoutComment raw = text)
    (hne : text ≠ []) (hrepeat : Text.startsWith text "REPEAT" = false)
    (hrestart : Text.startsWith text "RESTART_PAYLOAD" = false)
    (hstop : Text.startsWith text "STOP_PAYLOAD" = false) (previous : Text) (rest : List Text) :
    runLines previous (raw :: rest) = line text rest >>= fun taken ↦ defaultPause >>= fun _ ↦
      runLines text (rest.drop taken) := by
  have hempty : text.isEmpty = false := by simpa using hne
  rw [runLines, htext]
  simp only [hempty, hrepeat, hrestart, hstop, Bool.false_eq_true, if_false]

/-- A script of one line that is neither a repetition nor an end executes that line and pauses. -/
theorem script_eq_line {t raw text : Text} (hraw : Text.lines t = [raw])
    (htext : withoutComment raw = text) (hne : text ≠ [])
    (hrepeat : Text.startsWith text "REPEAT" = false)
    (hrestart : Text.startsWith text "RESTART_PAYLOAD" = false)
    (hstop : Text.startsWith text "STOP_PAYLOAD" = false) :
    script t = line text [] >>= fun _ ↦ defaultPause := by
  have hlast : runLines text [] = pure false := by rw [runLines]
  funext m
  rw [script, bind_of_ok (run_get m), hraw, runAgain,
    runLines_cons htext hne hrepeat hrestart hstop]
  simp only [List.drop_nil, hlast, bind_assoc, pure_bind, Bool.false_eq_true, if_false]
  rw [bind_pure_unit]

/-- In a fresh machine a trimmed line without a dollar sign is executed as it stands. -/
theorem line_fresh {text : Text} (hdollar : '$' ∉ text) (htrim : Text.trim text = text)
    {draws : Nat} (hd : 0 < draws) (seed : UInt64) (room : Nat) (rest : List Text) :
    line text rest (Machine.fresh seed room draws) =
      perform draws (execute draws) rest (Command.ofLine text)
        ((Machine.fresh seed room draws).withRandom (Machine.fresh seed room draws).random.next) := by
  have hdraw : (Machine.fresh seed room draws).CanDraw := by
    have hmin : (Machine.fresh seed room draws).variables.get? minName = some (.int 0) := rfl
    have hmax : (Machine.fresh seed room draws).variables.get? maxName = some (.int 65535) := rfl
    exact (canDraw_iff_le (k := 5) hmin hmax (by decide) (by decide) (by decide)).mpr (by decide)
  obtain ⟨n, shown, hn⟩ := hdraw
  have hnumber : ¬ "$_RANDOM_INT".toList <:+: Text.trim text := by
    rw [htrim]
    exact not_infix_of_not_mem hdollar
  rw [line_eq_bind, bind_of_ok (prepare_of_draws hn hd hnumber), understood_of_defines rfl, htrim]
  rfl

/-- A text without a dollar sign has no variable in it. -/
theorem replaceNames_of_no_dollar {t : Text} (hdollar : '$' ∉ t) {names : Table Value}
    (h : ∀ entry ∈ names, (∃ w, entry.1 = '$' :: w) ∧ entry.2.display? ≠ none) :
    replaceNames t names = pure t := by
  induction names with
  | nil => rfl
  | cons entry rest ih =>
    obtain ⟨⟨w, hw⟩, hv⟩ := h entry List.mem_cons_self
    have hnot : ¬ entry.1 <:+: t := by
      rw [hw]
      exact not_infix_of_not_mem hdollar
    rw [← ih fun e he ↦ h e (List.mem_cons_of_mem entry he)]
    exact replaceNames_cons_of_not_infix hv hnot rest

/-- Without a default delay, the pause after a line is told as one of no length. -/
theorem defaultPause_of_zero {m : Machine} (hm : m.defaultDelay = 0) (hroom : 0 < m.trace.room) :
    ∃ n, defaultPause m = .ok () n ∧ n.trace.events = m.trace.events.push (.pause 0) := by
  have hlength : Pause.ofDelay m.defaultDelay = .ok 0 := by
    rw [hm]
    decide +kernel
  obtain ⟨left, hleft⟩ : ∃ left, m.trace.room = left + 1 := ⟨m.trace.room - 1, by omega⟩
  have hemit : Act.pause (.ok 0) ⟨m.media, m.trace⟩ =
      .ok () ⟨m.media, ⟨m.trace.events.push (.pause 0), left⟩⟩ := by
    change Act.emit (.pause 0) _ = _
    unfold Act.emit
    rw [hleft]
  rw [defaultPause, bind_of_ok (run_get m), hlength, pause, onMedia, hemit]
  exact ⟨_, rfl, rfl⟩

private theorem replaceVariables_of_no_dollar {m : Machine} {t : Text} (hdollar : '$' ∉ t)
    (hnames : ∀ entry ∈ m.variables, (∃ w, entry.1 = '$' :: w) ∧ entry.2.display? ≠ none)
    (hinternals : m.internals = []) : replaceVariables t m = .ok t m := by
  rw [replaceVariables, bind_of_ok (run_get m), replaceNames_of_no_dollar hdollar hnames,
    pure_bind, bind_of_ok (run_get m), hinternals]
  rfl

private theorem perform_type {m : Machine} {t : Text} (hdollar : '$' ∉ t)
    (hnames : ∀ entry ∈ m.variables, (∃ w, entry.1 = '$' :: w) ∧ entry.2.display? ≠ none)
    (hinternals : m.internals = []) (fuel : Nat) (execute : Text → List Text → Macro Nat)
    (rest : List Text) :
    perform fuel execute rest (.type false t) m = (typeText t >>= fun _ ↦ pure 0) m := by
  rw [perform, bind_of_ok (replaceVariables_of_no_dollar hdollar hnames hinternals)]
  rfl

/-! ### Typing from a fresh machine -/

/-- Every variable of a fresh machine can be shown. -/
theorem shown_fresh (seed : UInt64) (room draws : Nat) :
    ∀ entry ∈ (Machine.fresh seed room draws).variables,
      (∃ w, entry.1 = '$' :: w) ∧ entry.2.display? ≠ none := by
  have hnumber : ∀ n : Int, n.natAbs < Nat.pow 10 5 → (Value.int n).display? ≠ none := by
    intro n hn
    rw [display?_of_lt hn (by decide)]
    exact Option.some_ne_none _
  intro entry he
  rcases List.mem_cons.mp he with rfl | he
  · exact ⟨⟨_, rfl⟩, hnumber 0 (by decide)⟩
  · obtain rfl := List.mem_singleton.mp he
    exact ⟨⟨_, rfl⟩, hnumber 65535 (by decide)⟩

section Fresh

variable (seed : UInt64) {room : Nat} (draws : Nat) {t : Text}

private theorem typeText_fresh (hkeys : ∀ c ∈ t, Layout.us.HasKey c)
    (hroom : (Layout.usReports t).length ≤ room) : ∃ n,
    typeText t (Machine.fresh seed room draws) = .ok () n ∧
      n.trace.events = ((Layout.usReports t).map Event.key).toArray ∧
      keyReports 0 n.trace = Layout.usReports t := by
  obtain ⟨trace, hrun, hsent⟩ := typeText_eq (m := Machine.fresh seed room draws) hkeys rfl hroom
  refine ⟨_, hrun, ?_, hsent⟩
  have heq := hrun.symm.trans (typeText_sent (m := Machine.fresh seed room draws) hkeys rfl hroom)
  have htrace := congrArg (·.trace.events) (EStateM.Result.ok.inj heq).2
  exact htrace.trans Array.empty_append

/-- A line with a typable text is one line. -/
theorem lines_stringLine (ht : Typable t) : Text.lines (stringLine t) = [stringLine t] := by
  refine Text.lines_of_not_isLineEnd (List.cons_ne_nil _ _) fun c hc ↦ ?_
  rcases List.mem_append.mp hc with hc | hc
  · have hword : "STRING ".toList.all (!Text.isLineEnd ·) = true := by decide
    simpa using List.all_eq_true.mp hword c hc
  · exact ht.oneLine c hc

private theorem script_stringLine (ht : Typable t) {text : Text} (htext : text =
    if beforeComment t = [] then "STRING".toList else stringLine (beforeComment t)) :
    script (stringLine t) = line text [] >>= fun _ ↦ defaultPause := by
  have hlines := lines_stringLine ht
  have hleft := (withoutComment_stringLine t).trans htext.symm
  by_cases hnil : beforeComment t = []
  · obtain rfl : text = "STRING".toList := htext.trans (if_pos hnil)
    exact script_eq_line hlines hleft (by decide) (by decide) (by decide) (by decide)
  · obtain rfl : text = stringLine (beforeComment t) := htext.trans (if_neg hnil)
    exact script_eq_line hlines hleft (List.cons_ne_nil _ _) rfl rfl rfl

variable {draws}

/-- A line with a text types what it keeps of the text, and pauses. -/
theorem script_of_kept (hd : 0 < draws) (ht : Typable t) (hne : beforeComment t ≠ [])
    (hroom : (Layout.usReports (beforeComment t)).length < room) : ∃ n,
    script (stringLine t) (Machine.fresh seed room draws) = .ok () n ∧
      n.trace.events =
        ((Layout.usReports (beforeComment t)).map Event.key).toArray.push (.pause 0) ∧
      keyReports 0 n.trace = Layout.usReports (beforeComment t) := by
  have hscript := script_stringLine ht (if_neg hne).symm
  have hsub := (prefix_beforeComment t).subset
  have hlast : ∀ c ∈ (beforeComment t).getLast?, Text.isBlank c = false := fun c ↦
    Text.isBlank_of_getLast?_trimRight
  generalize beforeComment t = u at *
  have hdollar : '$' ∉ u := fun h ↦ ht.dollar (hsub h)
  have hkeys : ∀ c ∈ u, Layout.us.HasKey c := fun c hc ↦ ht.keys c (hsub hc)
  have hline := line_fresh (dollar_not_mem_stringLine hdollar) (trim_stringLine hne hlast) hd
    seed room []
  have hcommand : Command.ofLine (stringLine u) = .type false u := rfl
  obtain ⟨random, hr⟩ : ∃ random, (Machine.fresh seed room draws).random.next = random := ⟨_, rfl⟩
  have htyped := typeText_sent (m := (Machine.fresh seed room draws).withRandom random) hkeys rfl
    hroom.le
  rw [hcommand, hr, perform_type (m := (Machine.fresh seed room draws).withRandom random) hdollar
    (shown_fresh seed room draws) rfl, bind_of_ok htyped] at hline
  obtain ⟨n, hpause, hevents⟩ := defaultPause_of_zero (m := { (Machine.fresh seed room draws) with
    random, trace := ⟨#[] ++ ((Layout.usReports u).map Event.key).toArray,
      room - (Layout.usReports u).length⟩ }) rfl (Nat.sub_pos_of_lt hroom)
  rw [Array.empty_append] at hevents
  refine ⟨n, ?_, hevents, ?_⟩
  · rw [hscript, bind_of_ok hline]
    exact hpause
  · rw [keyReports, hevents, Array.toList_push, List.drop_zero, List.filterMap_append,
      List.filterMap_map]
    exact (List.append_nil _).trans List.filterMap_some

private theorem script_of_nothing_kept (hd : 0 < draws) (ht : Typable t)
    (hnil : beforeComment t = []) :
    ∃ n, script (stringLine t) (Machine.fresh seed room draws) =
      .error (.failed .endOfLines) n ∧ n.trace.events = #[] := by
  have hline : line "STRING" [] (Machine.fresh seed room draws) = .error (.failed .endOfLines)
      ((Machine.fresh seed room draws).withRandom (Machine.fresh seed room draws).random.next) :=
    line_fresh (by decide) (Text.trim_of_visible (by decide) (by decide)) hd seed room []
  rw [script_stringLine ht (if_pos hnil).symm, bind_of_error hline]
  exact ⟨_, rfl, rfl⟩

end Fresh

end Macro

/-- The script ends, and the key reports it sends are those of typing the text. -/
def Types (script t : Text) (m : Machine) : Prop :=
  ∃ n n', Macro.script script m = .ok () n ∧ Macro.typeText t m = .ok () n' ∧
    keyReports m.trace.events.size n.trace = keyReports m.trace.events.size n'.trace

/-- From a fresh machine, a line with a typable text types exactly that text if and only if the text
has no number sign (`parseLine`). In any case it types what it keeps of the text, and all else that
is seen is the pause after the line; if it keeps nothing, the script fails before anything is seen.
-/
theorem stringLine_types_iff (seed : UInt64) {room draws : Nat} {t : Text} (ht : Typable t)
    (hd : 0 < draws) (hroom : (Layout.usReports t).length < room) :
    (Types (stringLine t) t (Machine.fresh seed room draws) ↔ '#' ∉ t) ∧
    (beforeComment t ≠ [] → ∃ n n',
      Macro.script (stringLine t) (Machine.fresh seed room draws) = .ok () n ∧
      Macro.typeText (beforeComment t) (Machine.fresh seed room draws) = .ok () n' ∧
      n.trace.events = n'.trace.events.push (.pause 0)) ∧
    (beforeComment t = [] → ∃ n,
      Macro.script (stringLine t) (Machine.fresh seed room draws) =
        .error (.failed .endOfLines) n ∧ n.trace.events = #[]) := by
  have hsub := (prefix_beforeComment t).subset
  have hkeys : ∀ c ∈ beforeComment t, Layout.us.HasKey c := fun c hc ↦ ht.keys c (hsub hc)
  have hkept : (Layout.usReports (beforeComment t)).length < room := by
    obtain ⟨cut, hcut⟩ := prefix_beforeComment t
    have hle : (Layout.usReports (beforeComment t)).length ≤ (Layout.usReports t).length := by
      conv => rhs; rw [← hcut]
      simp [Layout.usReports]
    omega
  obtain ⟨n', htyped, -, hsent⟩ := Macro.typeText_fresh seed draws ht.keys hroom.le
  refine ⟨⟨?_, ?_⟩, ?_, fun hnil ↦ Macro.script_of_nothing_kept seed hd ht hnil⟩
  · rintro ⟨n, n'', hrun, htyped', hsame⟩
    obtain rfl : n' = n'' := (EStateM.Result.ok.inj (htyped.symm.trans htyped')).2
    by_cases hnil : beforeComment t = []
    · obtain ⟨_, hfail, -⟩ := Macro.script_of_nothing_kept seed hd ht hnil
      cases hfail.symm.trans hrun
    · obtain ⟨m, hrun', -, hreports⟩ := Macro.script_of_kept seed hd ht hnil hkept
      obtain rfl : m = n := (EStateM.Result.ok.inj (hrun'.symm.trans hrun)).2
      -- equal reports are read as one text
      have hread : Layout.us.read? (Layout.usReports (beforeComment t)) = some t := by
        rw [← hreports, ← Layout.read?_usReports ht.keys, ← hsent]
        exact congrArg _ hsame
      rw [Layout.read?_usReports hkeys] at hread
      exact (beforeComment_eq_self_iff ht).mp (Option.some.inj hread)
  · intro hfree
    have hself := (beforeComment_eq_self_iff ht).mpr hfree
    obtain ⟨n, hrun, -, hreports⟩ :=
      Macro.script_of_kept seed hd ht (by rw [hself]; exact ht.nonempty) hkept
    refine ⟨n, n', hrun, htyped, ?_⟩
    exact hreports.trans (by rw [hself]; exact hsent.symm)
  · intro hne
    obtain ⟨n, hrun, hevents, -⟩ := Macro.script_of_kept seed hd ht hne hkept
    obtain ⟨m, htyped, hkeptEvents, -⟩ := Macro.typeText_fresh seed draws hkeys hkept.le
    exact ⟨n, m, hrun, htyped, by rw [hevents, hkeptEvents]⟩

/-- A text that reads like commands is typed as it is. -/
theorem stringLine_types_iff_commands : Typable " REM STRINGLN\tDELAY 5 END_STRING".toList ∧
    Types (stringLine " REM STRINGLN\tDELAY 5 END_STRING") " REM STRINGLN\tDELAY 5 END_STRING"
      (Machine.fresh 1 100 1) := by
  have ht : Typable " REM STRINGLN\tDELAY 5 END_STRING".toList :=
    .of_all (by decide) (by decide +kernel) (by decide +kernel)
  exact ⟨ht, (stringLine_types_iff 1 ht (by decide) (by decide +kernel)).1.mpr (by decide)⟩

/-- How many key reports a result shows, if there is one. -/
def reportCount? {α : Type} : EStateM.Result (Halt Fault) Machine α → Option Nat
  | .ok _ n => some (keyReports 0 n.trace).length
  | .error _ _ => none

/-- Of a text with a number sign only the part before it is typed. -/
theorem number_sign_not_typed : Typable "a#b".toList ∧
    ¬ Types (stringLine "a#b") "a#b" (Machine.fresh 1 10 1) := by
  have hscript : reportCount? (Macro.script (stringLine "a#b") (Machine.fresh 1 10 1)) = some 2 := by
    decide +kernel
  have htext : reportCount? (Macro.typeText "a#b" (Machine.fresh 1 10 1)) = some 7 := by
    decide +kernel
  refine ⟨.of_all (by decide) (by decide +kernel) (by decide +kernel), ?_⟩
  rintro ⟨n, n', hn, hn', hsame⟩
  rw [hn] at hscript
  rw [hn'] at htext
  have hlength : (keyReports 0 n.trace).length = (keyReports 0 n'.trace).length :=
    congrArg List.length hsame
  simp only [reportCount?, Option.some.injEq] at hscript htext
  omega

end Script

end Deskhand
