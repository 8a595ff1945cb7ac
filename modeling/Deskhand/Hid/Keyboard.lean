import Deskhand.Event

/-!
# Keyboard, pointer and media keypad

The operations of the three devices: each changes the device's report and sends it.
-/

namespace Deskhand.Hid

namespace Keyboard

/-- Sends the report as it stands. -/
def send : Act KeyReport Unit := do Act.emit (.key (← get).report)

/-- Presses keys together and sends one report (`Keyboard.press`). A refused key ends it, with the
keys before it down and nothing sent. -/
def press (codes : List KeyCode) : Act KeyReport Unit := do
  let (report, fault) := (← get).report.pressAll codes
  Act.setReport report
  match fault with
  | some fault => Act.fail fault
  | none => send

/-- Releases keys together and sends one report (`Keyboard.release`). -/
def release (codes : List KeyCode) : Act KeyReport Unit := do
  Act.setReport ((← get).report.releaseAll codes)
  send

/-- Releases every key and sends one report (`Keyboard.release_all`). -/
def releaseAll : Act KeyReport Unit := do
  Act.setReport .empty
  send

/-- Presses keys together and then releases every key (`Keyboard.send`). -/
def tap (codes : List KeyCode) : Act KeyReport Unit := do
  press codes
  releaseAll

end Keyboard

namespace Pointer

/-- Replaces the report and sends it, or fails. -/
def update (report : Except Fault PointerReport) : Act PointerReport Unit := do
  let report ← Act.ofExcept report
  Act.setReport report
  Act.emit (.pointer report)

/-- Presses buttons (`Mouse.press`). -/
def press (buttons : Int) : Act PointerReport Unit := do update ((← get).report.press buttons)

/-- Releases buttons (`Mouse.release`). -/
def release (buttons : Int) : Act PointerReport Unit := do update ((← get).report.release buttons)

/-- Releases all buttons (`Mouse.release_all`). -/
def releaseAll : Act PointerReport Unit := do update (.ok (← get).report.releaseAll)

/-- Presses and releases buttons (`Mouse.click`). -/
def click (buttons : Int) : Act PointerReport Unit := do
  press buttons
  release buttons

open PointerReport (limit) in
/-- Moves and turns the wheel, in as many reports as it takes (`Mouse.move`). -/
def move (x y wheel : Int) : Act PointerReport Unit :=
  if x = 0 ∧ y = 0 ∧ wheel = 0 then pure ()
  else do
    update (.ok ((← get).report.moved (limit x) (limit y) (limit wheel)))
    move (x - limit x) (y - limit y) (wheel - limit wheel)
termination_by x.natAbs + y.natAbs + wheel.natAbs
decreasing_by
  simp only [limit]
  omega

open PointerReport (limit) in
/-- A movement sends the reports of its parts, each in turn. -/
theorem move_eq_forM (x y wheel : Int) (port : Port PointerReport) :
    move x y wheel port
      = (port.report.moves x y wheel).forM (fun report ↦ update (.ok report)) port := by
  fun_induction move x y wheel generalizing port with
  | case1 x y wheel h => simp [h]
  | case2 x y wheel h ih =>
    rw [PointerReport.moves]
    simp only [h, if_false, List.forM_eq_forM, List.forM_cons]
    generalize hm : port.report.moved (limit x) (limit y) (limit wheel) = report
    have hupdate : update (.ok report) port = Act.emit (.pointer report) ⟨report, port.trace⟩ := rfl
    change (update (.ok (port.report.moved (limit x) (limit y) (limit wheel))) >>= fun _ ↦
      move (x - limit x) (y - limit y) (wheel - limit wheel)) port = _
    -- the rest of the movement starts from the report that was sent, if there was room for it
    simp only [hm, bind, EStateM.bind, hupdate, Act.emit]
    cases port.trace.room with
    | zero => rfl
    | succ room => simp [ih, ← hm]

end Pointer

namespace Media

/-- Presses a media code (`ConsumerControl.press`). -/
def press (code : Int) : Act MediaReport Unit := do
  let (report, fault) := (← get).report.press code
  Act.setReport report
  match fault with
  | some fault => Act.fail fault
  | none => Act.emit (.media report)

/-- Releases the media code that is down (`ConsumerControl.release`). -/
def release : Act MediaReport Unit := do
  Act.setReport .empty
  Act.emit (.media .empty)

/-- Presses and releases a media code (`ConsumerControl.send`). -/
def tap (code : Int) : Act MediaReport Unit := do
  press code
  release

end Media

end Deskhand.Hid
