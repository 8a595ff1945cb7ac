import Deskhand.Script.Run

/-!
# What single commands are made of

A command that executes no further lines prints, pauses, types, looks at variables, draws or changes
one of the tables. A relation between two runs of the same command, or a property of one run, that
holds of these parts holds of the command (`Parts.perform`), and one that holds of pressing and of
releasing a key holds of a line of keys (`Parts.pressLine`).
-/

namespace Deskhand.Script

namespace Command

/-- A command that executes no further lines. -/
def IsSingle : Command → Prop
  | .loop _ | .other _ => False
  | _ => True

/-- A command that shows the values of variables. -/
def Shows : Command → Prop
  | .typeBlock _ | .type .. | .print _ => True
  | _ => False

/-- A single command that looks at the lines after it. -/
def LooksAhead : Command → Prop
  | .skipBlock | .typeBlock _ | .function (some _) => True
  | _ => False

end Command

/-- A block is typed line by line up to its end mark. -/
theorem Macro.typeBlock_cons (enter : Bool) (endMark : Text) (first : Bool) (line : Text)
    (rest : List Text) :
    typeBlock enter endMark first (line :: rest) =
      replaceVariables (Text.trim line) >>= fun line ↦
        (if first then pure line else replaceDefines line) >>= fun line ↦
          if Text.startsWith line endMark then pure 1
          else typeText line >>= fun _ ↦ (if enter then typeEnter else pure ()) >>= fun _ ↦
            typeBlock enter endMark false rest >>= fun taken ↦ pure (taken + 1) := by
  cases first <;> cases enter <;> simp [typeBlock]

variable [Evaluator]

/-- Whatever lines are executed by does not matter to a single command. -/
theorem Macro.perform_of_isSingle {command : Command} (hs : command.IsSingle) (fuel fuel' : Nat)
    (execute execute' : Text → List Text → Macro Nat) (rest : List Text) :
    perform fuel execute rest command = perform fuel' execute' rest command := by
  cases command with
  | delay digits => cases digits <;> rfl
  | function name => cases name <;> rfl
  | loop guard => exact hs.elim
  | other line => exact hs.elim
  | _ => rfl

/-- The relation holds of the parts of the commands in `P`. -/
structure Parts (C : ∀ {α : Type}, Macro α → Macro α → Prop) (P : Command → Prop) : Prop where
  pure {α : Type} (a : α) : C (pure a) (pure a)
  bind {α β : Type} {act act' : Macro α} {next next' : α → Macro β} (ha : C act act')
    (hn : ∀ a, C (next a) (next' a)) : C (act >>= next) (act' >>= next')
  fail {α : Type} {fault : Fault} (h : fault.exits = false) :
    C (Macro.fail fault : Macro α) (Macro.fail fault)
  print (line : Text) : C (Macro.print line) (Macro.print line)
  pause (length : Except Hid.Fault Int) : C (Macro.pause length) (Macro.pause length)
  typeText (t : Text) : C (Macro.typeText t) (Macro.typeText t)
  typeEnter : C Macro.typeEnter Macro.typeEnter
  hold {name : Text} {code : Nat} (h : P (.hold name)) (hk : scriptKey? name = some code) :
    C (Macro.onKeyboard (Hid.Keyboard.press [(code : Int)]))
      (Macro.onKeyboard (Hid.Keyboard.press [(code : Int)]))
  release {name : Text} {code : Nat} (h : P (.release name)) (hk : scriptKey? name = some code) :
    C (Macro.onKeyboard (Hid.Keyboard.release [(code : Int)]))
      (Macro.onKeyboard (Hid.Keyboard.release [(code : Int)]))
  releaseAll (h : P .releaseAll) :
    C (Macro.onKeyboard Hid.Keyboard.releaseAll) (Macro.onKeyboard Hid.Keyboard.releaseAll)
  replaceVariables {command : Command} (h : P command) (hs : command.Shows) (t : Text) :
    C (Macro.replaceVariables t) (Macro.replaceVariables t)
  replaceDefines {enter : Bool} (h : P (.typeBlock enter)) (t : Text) :
    C (Macro.replaceDefines t) (Macro.replaceDefines t)
  drawChar {pool : Pool} {count : Nat} (h : P (.random pool count)) :
    C (Macro.drawChar pool.chars) (Macro.drawChar pool.chars)
  evaluate {name e : Text} (h : P (.assign name e)) : C (Macro.evaluate e) (Macro.evaluate e)
  assign {name e : Text} (h : P (.assign name e)) (v : Value) :
    C (modify fun m ↦ { m with «variables» := m.variables.put name v })
      (modify fun m ↦ { m with «variables» := m.variables.put name v })
  defaultDelay {t : Text} (h : P (.defaultDelay t)) (n : Int) :
    C (modify fun m ↦ { m with defaultDelay := n * 10 })
      (modify fun m ↦ { m with defaultDelay := n * 10 })
  define {word value : Text} (h : P (.define word value)) :
    C (modify fun m ↦ { m with defines := m.defines.put word value })
      (modify fun m ↦ { m with defines := m.defines.put word value })
  function {name : Text} (h : P (.function (some name))) (body : List Text) :
    C (modify fun m ↦ { m with functions := m.functions.put name body })
      (modify fun m ↦ { m with functions := m.functions.put name body })

namespace Parts

variable {C : ∀ {α : Type}, Macro α → Macro α → Prop} {P : Command → Prop} (h : Parts C P)

include h

/-- Going through a list. -/
theorem forM {β : Type} {act act' : β → Macro PUnit} (ha : ∀ b, C (act b) (act' b))
    (items : List β) : C (items.forM act) (items.forM act') := by
  induction items with
  | nil => exact h.pure _
  | cons b rest ih => exact h.bind (ha b) fun _ ↦ ih

/-- Taking over a result. -/
theorem ofExcept {α ε : Type} {f : ε → Fault} (hf : ∀ e, (f e).exits = false) (r : Except ε α) :
    C (Macro.ofExcept f r) (Macro.ofExcept f r) := by
  cases r with
  | ok a => exact h.pure a
  | error e => exact h.fail (hf e)

/-- The keys that words name. -/
theorem keysOf (words : List Text) : C (Macro.keysOf words) (Macro.keysOf words) := by
  induction words with
  | nil => exact h.pure []
  | cons word rest ih =>
    rw [Macro.keysOf]
    split
    · exact h.bind ih fun _ ↦ h.pure _
    · exact h.bind (h.print _) fun _ ↦ ih

/-- A line of keys. -/
theorem pressLine (hpress : ∀ key, C (Macro.pressKey key) (Macro.pressKey key))
    (hrelease : ∀ key, C (Macro.releaseKey key) (Macro.releaseKey key)) (line : Text) :
    C (Macro.pressLine line) (Macro.pressLine line) := by
  refine h.bind (h.keysOf _) fun keys ↦ ?_
  exact h.bind (h.forM hpress keys) fun _ ↦ h.forM hrelease keys.reverse

/-- The lines of a block. -/
theorem typeBlock (enter : Bool) (hb : P (.typeBlock enter)) (endMark : Text) (first : Bool)
    (lines : List Text) :
    C (Macro.typeBlock enter endMark first lines) (Macro.typeBlock enter endMark first lines) := by
  induction lines generalizing first with
  | nil => exact h.fail rfl
  | cons line rest ih =>
    rw [Macro.typeBlock_cons]
    refine h.bind (h.replaceVariables hb trivial _) fun line ↦ h.bind ?_ fun line ↦ ?_
    · split
      · exact h.pure line
      · exact h.replaceDefines hb line
    · split
      · exact h.pure 1
      · refine h.bind (h.typeText line) fun _ ↦ h.bind ?_ fun _ ↦ h.bind (ih false) fun _ ↦ h.pure _
        split
        · exact h.typeEnter
        · exact h.pure _

/-- A command that executes no further lines. -/
theorem perform {command : Command} (hs : command.IsSingle) (hp : P command) (fuel fuel' : Nat)
    (execute execute' : Text → List Text → Macro Nat) {rest rest' : List Text}
    (hr : command.LooksAhead → rest' = rest) :
    C (Macro.perform fuel execute rest command) (Macro.perform fuel' execute' rest' command) := by
  cases command with
  | ignore => exact h.pure 0
  | skipBlock =>
    rw [hr trivial, Macro.perform, Macro.perform]
    split
    · exact h.pure _
    · exact h.fail rfl
  | hold name =>
    rw [Macro.perform, Macro.perform]
    split
    · next hk => exact h.bind (h.hold hp hk) fun _ ↦ h.pure 0
    · exact h.bind (h.print _) fun _ ↦ h.pure 0
  | release name =>
    rw [Macro.perform, Macro.perform]
    split
    · next hk => exact h.bind (h.release hp hk) fun _ ↦ h.pure 0
    · exact h.bind (h.print _) fun _ ↦ h.pure 0
  | delay digits =>
    cases digits with
    | none => exact h.pure 0
    | some ds =>
      exact h.bind (h.ofExcept (fun _ ↦ rfl) _) fun _ ↦ h.bind (h.pause _) fun _ ↦ h.pure 0
  | typeBlock enter =>
    rw [hr trivial]
    exact h.typeBlock enter hp _ true rest
  | type enter t =>
    refine h.bind (h.replaceVariables hp trivial t) fun t ↦ h.bind (h.typeText t) fun _ ↦ ?_
    split
    · exact h.bind h.typeEnter fun _ ↦ h.pure 0
    · exact h.pure 0
  | print t =>
    exact h.bind (h.replaceVariables hp trivial t) fun _ ↦ h.bind (h.print _) fun _ ↦ h.pure 0
  | defaultDelay t =>
    exact h.bind (h.ofExcept (fun _ ↦ rfl) _) fun n ↦ h.bind (h.defaultDelay hp n) fun _ ↦ h.pure 0
  | assign name e =>
    exact h.bind (h.evaluate hp) fun v ↦ h.bind (h.assign hp v) fun _ ↦ h.pure 0
  | badDeclaration line => exact h.fail rfl
  | badAssignment line => exact h.fail rfl
  | define word value => exact h.bind (h.define hp) fun _ ↦ h.pure 0
  | function name =>
    cases name with
    | none => exact h.fail rfl
    | some name =>
      rw [hr trivial]
      refine h.bind (h.function hp _) fun _ ↦ ?_
      split
      · exact h.pure _
      · exact h.fail rfl
  | random pool count =>
    refine h.bind (h.forM (fun _ ↦ ?_) _) fun _ ↦ h.pure 0
    exact h.bind (h.drawChar hp) fun c ↦ h.typeText [c]
  | releaseAll => exact h.bind (h.releaseAll hp) fun _ ↦ h.pure 0
  | loop guard => exact hs.elim
  | other line => exact hs.elim

/-- Preparing a line. -/
theorem prepare
    (hbound : ∀ name otherwise, C (Macro.bound name otherwise) (Macro.bound name otherwise))
    (hdraw : ∀ n, C (Macro.drawBelow n) (Macro.drawBelow n))
    (hdefines : ∀ t, C (Macro.replaceDefines t) (Macro.replaceDefines t)) (line : Text) :
    C (Macro.prepare line) (Macro.prepare line) := by
  have hbetween : ∀ low high, C (Macro.drawBetween low high) (Macro.drawBetween low high) := by
    intro low high
    unfold Macro.drawBetween
    split
    · exact h.fail rfl
    · exact h.bind (hdraw _) fun _ ↦ h.pure _
  have hshown : ∀ n, C (Macro.integerText n) (Macro.integerText n) := by
    intro n
    unfold Macro.integerText
    split
    · exact h.pure _
    · exact h.fail rfl
  refine h.bind (hbound _ _) fun low ↦ h.bind (hbound _ _) fun high ↦ ?_
  exact h.bind (hbetween low high) fun n ↦ h.bind (hshown n) fun t ↦ hdefines _

end Parts

end Deskhand.Script
