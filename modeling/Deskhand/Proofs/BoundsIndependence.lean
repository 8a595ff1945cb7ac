import Deskhand.Proofs.IntegerText
import Deskhand.Proofs.RandomBounds

/-!
# Lines that do not name the random bounds

In every machine that scripts and messages can lead to, a line that does not name the random bounds
does what it does with the usual bounds if the machine can execute its command, and comes to nothing
if not. So after a script that sets the bounds the wrong way round, even the line that would set
them right comes to nothing.
-/

namespace Deskhand.Script

section Evaluated

variable [Evaluator]

/-- The line neither uses the random number nor names a bound in what it types or prints, its
expression has the same value with the usual bounds, and it neither opens a block nor calls a function.
The bounds may be what it assigns to. -/
structure Machine.Disregards (m : Machine) (text : Text) : Prop where
  number : ¬ "$_RANDOM_INT".toList <:+: Text.trim text
  lower : ¬ minName <:+: (Command.ofLine (m.understood text)).operand
  upper : ¬ maxName <:+: (Command.ofLine (m.understood text)).operand
  value : ∀ name e, Command.ofLine (m.understood text) = .assign name e →
    (m.withRandom m.random.next).SameValue e
  alone : m.Alone (Command.ofLine (m.understood text))

/-- The machine can execute a command: a number can be drawn, and if the command shows variables,
both bounds can be shown. -/
def Machine.Serves (m : Machine) (command : Command) : Prop :=
  m.CanDraw ∧ (command.Shows → m.ShowsBounds)

end Evaluated

namespace Macro

section CanDraw

variable {m : Machine}

/-- Between bounds that stand for integers that are not too long, a number can be drawn exactly if
they are in order. -/
theorem canDraw_iff_of_toInteger {low high : Int} {k : Nat}
    (hvlow : toInteger (m.boundValue minName 0) = .ok (.int low))
    (hvhigh : toInteger (m.boundValue maxName 65535) = .ok (.int high)) (hk : k ≤ Number.digitLimit)
    (hlow : low.natAbs < Nat.pow 10 k) (hhigh : high.natAbs < Nat.pow 10 k) :
    m.CanDraw ↔ low ≤ high := by
  constructor
  · rintro ⟨n, shown, ⟨low', high', hl, hh, hle, -⟩, -⟩
    obtain rfl := Value.int.inj (Except.ok.inj (hvlow.symm.trans hl))
    obtain rfl := Value.int.inj (Except.ok.inj (hvhigh.symm.trans hh))
    exact hle
  · intro hle
    refine ⟨_, _, ⟨⟨low, high, hvlow, hvhigh, hle, rfl⟩, intText?_of_lt ?_ hk⟩⟩
    generalize (Random.advance _ >>> 33).toNat = x
    have hbelow := Nat.mod_lt x (show 0 < (high - low + 1).toNat by omega)
    omega

/-- Between integers that are not too long a number can be drawn exactly if they are in order. -/
theorem canDraw_iff_le {low high : Int} {k : Nat}
    (hmin : m.variables.get? minName = some (.int low))
    (hmax : m.variables.get? maxName = some (.int high)) (hk : k ≤ Number.digitLimit)
    (hlow : low.natAbs < Nat.pow 10 k) (hhigh : high.natAbs < Nat.pow 10 k) :
    m.CanDraw ↔ low ≤ high := by
  refine canDraw_iff_of_toInteger ?_ ?_ hk hlow hhigh
  · rw [boundValue_of_get? hmin]
    rfl
  · rw [boundValue_of_get? hmax]
    rfl

private theorem canDraw_usualBounds (hb : BoundsFirst m.variables) : m.usualBounds.CanDraw := by
  obtain ⟨low, high, others, h⟩ := hb
  rw [usualBounds_eq h]
  exact (canDraw_iff_le (k := 5) rfl rfl (by decide) (by decide) (by decide)).mpr (by decide)

end CanDraw

variable [Evaluator] {m : Machine} {text : Text}

/-- A line is prepared and performed. -/
theorem line_eq_bind (text : Text) (rest : List Text) (m : Machine) : line text rest m =
    (prepare text >>= fun text ↦
      perform m.random.draws (execute m.random.draws) rest (Command.ofLine text)) m := by
  rw [line, bind_of_ok (run_get m)]
  rfl

private theorem line_of_canDraw (hc : m.CanDraw) (hd : 0 < m.random.draws)
    (ht : ¬ "$_RANDOM_INT".toList <:+: Text.trim text) (rest : List Text) : line text rest m =
      perform m.random.draws (execute m.random.draws) rest (Command.ofLine (m.understood text))
        (m.withRandom m.random.next) := by
  obtain ⟨n, shown, hn⟩ := hc
  rw [line_eq_bind, bind_of_ok (prepare_of_draws hn hd ht)]

private theorem line_usualBounds (hb : BoundsFirst m.variables) (hd : 0 < m.random.draws)
    (ht : ¬ "$_RANDOM_INT".toList <:+: Text.trim text) (rest : List Text) :
    line text rest m.usualBounds =
      perform m.random.draws (execute m.random.draws) rest (Command.ofLine (m.understood text))
        (m.withRandom m.random.next).usualBounds := by
  rw [line_of_canDraw (canDraw_usualBounds hb) hd ht, random_usualBounds, understood_usualBounds,
    withRandom_usualBounds]

/-- A line that disregards the bounds does what it does with the usual ones, if the machine can
execute its command. -/
theorem sameOutcome_line (hb : BoundsFirst m.variables) (hd : 0 < m.random.draws)
    (ht : m.Disregards text) (hs : m.Serves (Command.ofLine (m.understood text))) (rest : List Text) :
    SameOutcome m.variables m.usualBounds.variables (line text rest m)
      (line text rest m.usualBounds) := by
  have hvalue := ht.value
  rw [line_of_canDraw hs.1 hd ht.number, line_usualBounds hb hd ht.number]
  obtain ⟨low, high, others, h⟩ := hb
  obtain ⟨random, hnext⟩ : ∃ random, m.random.next = random := ⟨_, rfl⟩
  rw [hnext] at hvalue ⊢
  exact sameOutcome_perform (m := m.withRandom random) h ht.alone ht.lower ht.upper hvalue hs.2 _ _
    rest

/-- Every other line that disregards the bounds comes to nothing. -/
theorem line_fruitless (hb : BoundsFirst m.variables) (hd : 0 < m.random.draws)
    (ht : m.Disregards text) (hs : ¬ m.Serves (Command.ofLine (m.understood text)))
    (rest : List Text) : Fruitless m (line text rest m) := by
  by_cases hc : m.CanDraw
  · obtain ⟨low, high, others, h⟩ := hb
    obtain ⟨hshows, hno⟩ := Classical.not_imp.mp fun hi ↦ hs ⟨hc, hi⟩
    rw [line_of_canDraw hc hd ht.number]
    obtain ⟨random, hnext⟩ : ∃ random, m.random.next = random := ⟨_, rfl⟩
    rw [hnext]
    exact perform_fruitless (m := m.withRandom random) h ht.alone hshows hno _ _ rest
  · obtain ⟨fault, random, hp⟩ := prepare_fruitless hc hd text
    exact ⟨fault, random, by rw [line_eq_bind, bind_of_error hp]⟩

/-- With the usual bounds, a line that disregards them and fails changes no variable. -/
theorem variables_of_failed (hb : BoundsFirst m.variables) (hd : 0 < m.random.draws)
    (ht : m.Disregards text) {rest : List Text} {fault : Fault} {n : Machine}
    (h : line text rest m.usualBounds = .error (.failed fault) n) :
    n.variables = m.usualBounds.variables := by
  have hvalue := ht.value
  rw [line_usualBounds hb hd ht.number] at h
  obtain ⟨random, hnext⟩ : ∃ random, m.random.next = random := ⟨_, rfl⟩
  rw [hnext] at hvalue h
  have hends := sameVariables_of_failed (m := (m.withRandom random).usualBounds) ht.alone
    (fun name e he ↦ (hvalue name e he).failed) m.random.draws (execute m.random.draws) rest
  rw [h] at hends
  cases hends with
  | failed hn => exact hn

/-- A line that disregards the bounds has the same outcome as with the usual ones exactly if the
machine can execute its command, or the line comes to nothing with the usual bounds too. -/
theorem sameOutcome_line_iff (hb : BoundsFirst m.variables) (hd : 0 < m.random.draws)
    (ht : m.Disregards text) (rest : List Text) :
    SameOutcome m.variables m.usualBounds.variables (line text rest m)
        (line text rest m.usualBounds) ↔
      m.Serves (Command.ofLine (m.understood text)) ∨
        Fruitless m.usualBounds (line text rest m.usualBounds) := by
  by_cases hs : m.Serves (Command.ofLine (m.understood text))
  · exact iff_of_true (sameOutcome_line hb hd ht hs rest) (.inl hs)
  · obtain ⟨fault, random, hm⟩ := line_fruitless hb hd ht hs rest
    rw [hm]
    constructor
    · intro hsame
      generalize hr : line text rest m.usualBounds = r at hsame
      cases hsame with
      | failed h =>
        obtain ⟨changes, random', -, rfl⟩ := h
        have hvars : m.usualBounds.variables.putAll changes = m.usualBounds.variables :=
          variables_of_failed hb hd ht hr
        rw [hvars]
        exact .inr ⟨_, random', rfl⟩
    · rintro (h | ⟨fault', random', h⟩)
      · exact absurd h hs
      · rw [h]
        exact .failed ⟨[], random', rfl, rfl⟩

end Macro

/-! ### Setting the upper bound -/

private theorem trimLeft_space {c : Char} {t : Text} (hc : Text.isBlank c = false) :
    Text.trimLeft (' ' :: c :: t) = c :: t := by
  rw [Text.trimLeft, List.dropWhile_cons, Text.isBlank_space, if_pos rfl, List.dropWhile_cons, hc]
  rfl

/-- An expression without blanks is assigned as it stands. -/
theorem assignment?_of_span {rest name after e : Text} (hspan : Text.spanWord rest = (name, after))
    (hname : name ≠ []) (hsign : Text.trimLeft after = '=' :: ' ' :: e) (hne : e ≠ [])
    (he : ∀ c ∈ e, Text.isBlank c = false) :
    Command.assignment? ('$' :: rest) = some (name, e) := by
  obtain ⟨c, u, rfl⟩ := List.exists_cons_of_ne_nil hne
  have hblanks : (' ' :: c :: u).takeWhile Text.isBlank = [' '] := by
    rw [List.takeWhile_cons, Text.isBlank_space, if_pos rfl, List.takeWhile_cons,
      he c List.mem_cons_self]
    rfl
  have hline : Command.firstLine (c :: u) = c :: u := by
    have hends : ∀ d ∈ c :: u, (d != '\n') = true := by
      intro d hd
      refine bne_iff_ne.mpr ?_
      rintro rfl
      exact absurd (he _ hd) (by rw [Text.isBlank_lineFeed]; decide)
    have htake : (c :: u ++ []).takeWhile (· != '\n') = c :: u ++ [].takeWhile (· != '\n') :=
      List.takeWhile_append_of_pos hends
    simpa [Command.firstLine] using htake
  have hempty : name.isEmpty = false := by simpa using hname
  simp [Command.assignment?, hspan, hsign, hempty, hblanks, hline]

namespace Macro

/-- The line that sets the upper bound. -/
def settingMax (t : Text) : Text := "VAR $_RANDOM_MAX = ".toList ++ t

private theorem settingMax_eq (t : Text) : settingMax t =
    'V' :: 'A' :: 'R' :: ' ' :: '$' :: '_' :: 'R' :: 'A' :: 'N' :: 'D' :: 'O' :: 'M' :: '_' ::
      'M' :: 'A' :: 'X' :: ' ' :: '=' :: ' ' :: t := rfl

section SettingMax

variable {m : Machine} {n : Int} {t : Text}

/-- A part does not occur where its first character does not. -/
theorem not_infix_of_not_mem {c : Char} {part : Text} (h : c ∉ t) : ¬ c :: part <:+: t :=
  fun hp ↦ h (hp.subset List.mem_cons_self)

private theorem not_infix_intText (h : Number.intText? n = some t) (part : Text) :
    ¬ '$' :: part <:+: t := by
  obtain ⟨rfl, -⟩ := of_intText? h
  exact not_infix_of_not_mem (not_mem_ofInt (by decide) (by decide))

private theorem isBlank_of_mem_intText (h : Number.intText? n = some t) {c : Char} (hc : c ∈ t) :
    Text.isBlank c = false := by
  obtain ⟨rfl, -⟩ := of_intText? h
  refine Text.isBlank_of_visible ?_
  rcases mem_ofInt hc with hd | rfl
  · simp only [Char.isDigit, Bool.and_eq_true, decide_eq_true_eq] at hd
    exact ⟨Char.le_trans (by decide) hd.1, Char.le_trans hd.2 (by decide)⟩
  · decide

/-- The text of an integer is not empty. -/
theorem intText_ne_nil (h : Number.intText? n = some t) : t ≠ [] := by
  obtain ⟨rfl, -⟩ := of_intText? h
  rcases ofInt_eq n with ⟨he, -⟩ | ⟨he, -⟩
  · rw [he]
    exact Nat.toDigits_ne_nil
  · rw [he]
    exact List.cons_ne_nil _ _

/-- The line is an assignment to the upper bound. -/
theorem ofLine_settingMax (h : Number.intText? n = some t) :
    Command.ofLine (settingMax t) = .assign maxName t := by
  have hafter : Text.after? "VAR" (settingMax t) = some (" $_RANDOM_MAX = ".toList ++ t) := rfl
  have htrim : Text.trimLeft (" $_RANDOM_MAX = ".toList ++ t) = "$_RANDOM_MAX = ".toList ++ t :=
    trimLeft_space (Text.isBlank_of_visible (by decide))
  have hspan : Text.spanWord ("_RANDOM_MAX = ".toList ++ t) =
      ("_RANDOM_MAX".toList, " = ".toList ++ t) := rfl
  have hsign : Text.trimLeft (" = ".toList ++ t) = '=' :: ' ' :: t :=
    trimLeft_space (Text.isBlank_of_visible (by decide))
  have hassign : Command.assignment? ("$_RANDOM_MAX = ".toList ++ t) =
      some ("_RANDOM_MAX".toList, t) :=
    assignment?_of_span hspan (by decide) hsign (intText_ne_nil h) fun c ↦ isBlank_of_mem_intText h
  have hdeclaration : Command.declaration? (settingMax t) = some ("_RANDOM_MAX".toList, t) := by
    unfold Command.declaration?
    rw [hafter]
    dsimp only
    rw [htrim, hassign]
    exact if_pos Text.isBlank_space
  unfold Command.ofLine
  rw [hdeclaration]
  rfl

/-- The line has no blanks around it. -/
theorem trim_settingMax (h : Number.intText? n = some t) :
    Text.trim (settingMax t) = settingMax t := by
  have hlast : ∀ l : Text, (l ++ t).getLast? = t.getLast? := by
    intro l
    rw [List.getLast?_append, Option.or_of_isSome (List.getLast?_isSome.mpr (intText_ne_nil h))]
  refine Text.trim_eq_self ?_ ?_
  · intro c hc
    rw [settingMax_eq] at hc
    obtain rfl := Option.some.inj hc
    exact Text.isBlank_of_visible (by decide)
  · intro c hc
    unfold settingMax at hc
    rw [hlast] at hc
    exact isBlank_of_mem_intText h (List.mem_of_getLast? hc)

end SettingMax

end Macro

section Evaluated

variable [Evaluator] {m : Machine} {n : Int} {t : Text}

/-- The text means the integer to the machine once it has drawn a number, whatever the variables. -/
def Machine.Reads (m : Machine) (n : Int) (t : Text) : Prop :=
  ∀ values, Macro.evaluate t ((m.withRandom m.random.next).withVariables values) =
    .ok (.int n) ((m.withRandom m.random.next).withVariables values)

namespace Macro

/-- The line disregards the bounds, if the defined words leave it alone. -/
theorem disregards_settingMax (h : Number.intText? n = some t)
    (hu : m.understood (settingMax t) = settingMax t) (hr : m.Reads n t) :
    m.Disregards (settingMax t) := by
  have hcommand : Command.ofLine (m.understood (settingMax t)) = .assign maxName t := by
    rw [hu, ofLine_settingMax h]
  refine ⟨?_, ?_, ?_, ?_, ?_⟩
  · rw [trim_settingMax h]
    have hnot := not_infix_intText h "_RANDOM_INT".toList
    rw [settingMax_eq]
    simpa [List.infix_cons_iff, List.cons_prefix_cons] using hnot
  · rw [hcommand]
    exact not_infix_of_not_mem List.not_mem_nil
  · rw [hcommand]
    exact not_infix_of_not_mem List.not_mem_nil
  · intro name e he
    obtain ⟨rfl, rfl⟩ := Command.assign.inj (hcommand.symm.trans he)
    unfold Machine.Reads at hr
    obtain ⟨random, hnext⟩ : ∃ random, m.random.next = random := ⟨_, rfl⟩
    rw [hnext] at hr ⊢
    have hm : evaluate t (m.withRandom random) = _ := hr m.variables
    have hm' : evaluate t (m.withRandom random).usualBounds = _ := hr _
    refine ⟨?_, ?_⟩
    · rw [hm, hm']
      exact .ok _ ⟨[], random, rfl, rfl⟩
    · rw [hm']
      exact .ok trivial
  · rw [hcommand]
    trivial

/-- The line sets the upper bound exactly where a number can be drawn. -/
theorem line_settingMax_iff (hb : BoundsFirst m.variables) (hd : 0 < m.random.draws)
    (h : Number.intText? n = some t) (hu : m.understood (settingMax t) = settingMax t)
    (hr : m.Reads n t) (rest : List Text) :
    (∃ random, line (settingMax t) rest m =
      .ok 0 ((m.withVariables (m.variables.put maxName (.int n))).withRandom random)) ↔
        m.CanDraw := by
  have ht := disregards_settingMax h hu hr
  constructor
  · rintro ⟨random, hline⟩
    refine Classical.byContradiction fun hc ↦ ?_
    obtain ⟨fault, random', hfail⟩ := line_fruitless hb hd ht (fun hs ↦ hc hs.1) rest
    cases hline.symm.trans hfail
  · intro hc
    refine ⟨m.random.next, ?_⟩
    rw [line_of_canDraw hc hd ht.number, hu, ofLine_settingMax h, perform]
    unfold Machine.Reads at hr
    obtain ⟨random, hnext⟩ : ∃ random, m.random.next = random := ⟨_, rfl⟩
    rw [hnext] at hr ⊢
    have hm : evaluate t (m.withRandom random) = _ := hr m.variables
    rw [bind_of_ok hm]
    rfl

end Macro

end Evaluated

/-! ### Every machine that scripts and messages lead to -/

/-- Whatever scripts and messages were executed, as long as no expression takes the bounds from the
front of the variables, a line that disregards the bounds has the same outcome as with the usual
bounds exactly if the machine can execute its command, or the line comes to nothing with the usual
bounds too; a line that the machine cannot execute comes to nothing (`parseLine`). So the upper bound
can be set to an integer exactly where a number can be drawn between the bounds that are there. -/
theorem outcome_with_usualBounds_iff [Evaluator] {jobs : List Job} {seed : UInt64}
    {room draws : Nat}
    {m : Machine} (he : EvaluatesOnly (Evaluator.Leaves (Maintains BoundsFirst))
      (fun E ↦ @Job.runAll E jobs) (.fresh seed room draws))
    (hm : Job.runAll jobs (Machine.fresh seed room draws) = .ok () m) (hd : 0 < m.random.draws) :
    (∀ text rest, m.Disregards text →
      (SameOutcome m.variables m.usualBounds.variables (Macro.line text rest m)
          (Macro.line text rest m.usualBounds) ↔
        m.Serves (Command.ofLine (m.understood text)) ∨
          Fruitless m.usualBounds (Macro.line text rest m.usualBounds)) ∧
      (¬ m.Serves (Command.ofLine (m.understood text)) → Fruitless m (Macro.line text rest m))) ∧
    ∀ n t rest, Number.intText? n = some t → m.Reads n t →
      m.understood (Macro.settingMax t) = Macro.settingMax t →
        m.Disregards (Macro.settingMax t) ∧
        ((∃ random, Macro.line (Macro.settingMax t) rest m =
          .ok 0 ((m.withVariables (m.variables.put maxName (.int n))).withRandom random)) ↔
            m.CanDraw) := by
  have hb := boundsFirst_of_runAll he hm
  refine ⟨?_, ?_⟩
  · intro text rest ht
    exact ⟨Macro.sameOutcome_line_iff hb hd ht rest, fun hs ↦ Macro.line_fruitless hb hd ht hs rest⟩
  · intro n t rest h hr hu
    exact ⟨Macro.disregards_settingMax h hu hr, Macro.line_settingMax_iff hb hd h hu hr rest⟩

private theorem reads_calculator {n : Int} {t : Text} (h : Number.intText? n = some t)
    (m : Machine) :
    m.Reads n t := fun _ ↦ Macro.evaluate_intText h _

/-- A machine with integers for bounds, without defined words, that has a number to draw. -/
structure Machine.HasBounds (m : Machine) (low high : Int) : Prop where
  lower : m.variables.get? minName = some (.int low)
  upper : m.variables.get? maxName = some (.int high)
  defines : m.defines = []
  draws : 0 < m.random.draws

/-- The bounds that a script leaves, if the machine has integers for bounds after it. -/
def boundsAfter? (script : Text) : Option (Int × Int) :=
  match Job.runAll [.script script] (Machine.fresh 1 10 10) with
  | .ok _ m =>
    if m.defines = [] ∧ 0 < m.random.draws then
      match m.variables.get? minName, m.variables.get? maxName with
      | some (.int low), some (.int high) => some (low, high)
      | _, _ => none
    else none
  | .error _ _ => none

/-- A script that leaves bounds leaves a machine that has them. -/
theorem exists_hasBounds {script : Text} {low high : Int}
    (h : boundsAfter? script = some (low, high)) :
    ∃ m, Job.runAll [.script script] (Machine.fresh 1 10 10) = .ok () m ∧ m.HasBounds low high := by
  unfold boundsAfter? at h
  split at h
  · next m hm =>
    split at h
    · next hfree =>
      split at h
      · next hlow hhigh =>
        cases h
        exact ⟨m, hm, hlow, hhigh, hfree.1, hfree.2⟩
      · cases h
    · cases h
  · cases h

/-- Without defined words a line is understood as it stands. -/
theorem understood_of_defines {m : Machine} (h : m.defines = []) (text : Text) :
    m.understood text = Text.trim text := by
  rw [Machine.understood, h]
  rfl

/-- With narrower bounds a text is typed and a variable set as ever, and the upper bound can be set. -/
theorem outcome_with_usualBounds_iff_narrow : ∃ m,
    Job.runAll [.script "VAR $_RANDOM_MAX = 9".toList] (Machine.fresh 1 10 10) = .ok () m ∧
    0 < m.random.draws ∧ m.Disregards "STRING hi".toList ∧ m.Disregards "VAR $x = 1+1".toList ∧
    SameOutcome m.variables m.usualBounds.variables (Macro.line "STRING hi" [] m)
      (Macro.line "STRING hi" [] m.usualBounds) ∧
    SameOutcome m.variables m.usualBounds.variables (Macro.line "VAR $x = 1+1" [] m)
      (Macro.line "VAR $x = 1+1" [] m.usualBounds) ∧
    ∃ random, Macro.line (Macro.settingMax "42") [] m =
      .ok 0 ((m.withVariables (m.variables.put maxName (.int 42))).withRandom random) := by
  have hbounds : boundsAfter? "VAR $_RANDOM_MAX = 9".toList = some (0, 9) := by decide +kernel
  obtain ⟨m, hm, hm'⟩ := exists_hasBounds hbounds
  obtain ⟨hsame, hset⟩ :=
    outcome_with_usualBounds_iff (evaluatesOnly_calculator _ _) hm hm'.draws
  have hdraw : m.CanDraw :=
    (Macro.canDraw_iff_le (k := 1) hm'.lower hm'.upper (by decide) (by decide) (by decide)).mpr
      (by decide)
  have hshown : m.ShowsBounds :=
    (showsBounds_iff hm'.lower hm'.upper).mpr ⟨by decide +kernel, by decide +kernel⟩
  have htype : Command.ofLine (m.understood "STRING hi") = .type false "hi" := by
    rw [understood_of_defines hm'.defines]
    decide +kernel
  have hhi : m.Disregards "STRING hi" := by
    refine ⟨Macro.not_infix_of_not_mem (by decide +kernel), ?_, ?_, ?_, ?_⟩
    · rw [htype]
      exact Macro.not_infix_of_not_mem (by decide)
    · rw [htype]
      exact Macro.not_infix_of_not_mem (by decide)
    · rw [htype]
      exact fun name e he ↦ nomatch he
    · rw [htype]
      trivial
  have hassign : Command.ofLine (m.understood "VAR $x = 1+1") = .assign "$x" "1+1" := by
    rw [understood_of_defines hm'.defines]
    decide +kernel
  have hx : m.Disregards "VAR $x = 1+1" := by
    refine ⟨fun hi ↦ ?_, ?_, ?_, ?_, ?_⟩
    · exact absurd (hi.subset (by decide : '_' ∈ "$_RANDOM_INT".toList)) (by decide +kernel)
    · rw [hassign]
      exact Macro.not_infix_of_not_mem (by decide)
    · rw [hassign]
      exact Macro.not_infix_of_not_mem (by decide)
    · rw [hassign]
      rintro name e ⟨⟩
      have hb := boundsFirst_of_runAll (evaluatesOnly_calculator _ _) hm
      obtain ⟨random, hnext⟩ : ∃ random, m.random.next = random := ⟨_, rfl⟩
      rw [hnext]
      exact sameValue_of_not_infix (m := m.withRandom random) hb
        (Macro.not_infix_of_not_mem (by decide)) (Macro.not_infix_of_not_mem (by decide))
    · rw [hassign]
      trivial
  have h42 : Number.intText? 42 = some "42".toList := by decide +kernel
  have hline : m.understood (Macro.settingMax "42") = Macro.settingMax "42" := by
    rw [understood_of_defines hm'.defines]
    exact Macro.trim_settingMax h42
  refine ⟨m, hm, hm'.draws, hhi, hx, ?_, ?_,
    (hset 42 _ [] h42 (reads_calculator h42 m) hline).2.mpr hdraw⟩
  · exact (hsame _ [] hhi).1.mpr (.inl ⟨hdraw, fun _ ↦ hshown⟩)
  · exact (hsame _ [] hx).1.mpr (.inl ⟨hdraw, fun _ ↦ hshown⟩)

/-- After a script that sets the upper bound below the lower one, the line that would set it right
comes to nothing, although with the usual bounds it sets it. -/
theorem upper_bound_not_set_again : ∃ m,
    Job.runAll [.script "VAR $_RANDOM_MAX = -1".toList] (Machine.fresh 1 10 10) = .ok () m ∧
    m.Disregards (Macro.settingMax "5") ∧ Fruitless m (Macro.line (Macro.settingMax "5") [] m) ∧
    ¬ SameOutcome m.variables m.usualBounds.variables (Macro.line (Macro.settingMax "5") [] m)
      (Macro.line (Macro.settingMax "5") [] m.usualBounds) := by
  have hbounds : boundsAfter? "VAR $_RANDOM_MAX = -1".toList = some (0, -1) := by decide +kernel
  obtain ⟨m, hm, hm'⟩ := exists_hasBounds hbounds
  have hb := boundsFirst_of_runAll (evaluatesOnly_calculator _ _) hm
  have h5 : Number.intText? 5 = some "5".toList := by decide +kernel
  have hline : m.understood (Macro.settingMax "5") = Macro.settingMax "5" := by
    rw [understood_of_defines hm'.defines]
    exact Macro.trim_settingMax h5
  have ht := Macro.disregards_settingMax h5 hline (reads_calculator h5 m)
  have hdraw : ¬ m.CanDraw := fun hc ↦ absurd
    ((Macro.canDraw_iff_le (k := 1) hm'.lower hm'.upper (by decide) (by decide) (by decide)).mp hc)
    (by decide)
  obtain ⟨fault, random, hfail⟩ := Macro.line_fruitless hb hm'.draws ht (fun hs ↦ hdraw hs.1) []
  obtain ⟨random', hok⟩ := (Macro.line_settingMax_iff (m := m.usualBounds)
    (boundsFirst_usualBounds m hb) hm'.draws h5 hline
    (reads_calculator h5 _) []).mpr (Macro.canDraw_usualBounds hb)
  refine ⟨m, hm, ht, ⟨fault, random, hfail⟩, fun hsame ↦ ?_⟩
  rw [hfail, hok] at hsame
  cases hsame

end Deskhand.Script
