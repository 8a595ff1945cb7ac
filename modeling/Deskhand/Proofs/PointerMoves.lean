import Deskhand.Hid.Keyboard
import Deskhand.Proofs.Outcome
import Mathlib.Algebra.Group.Prod
import Mathlib.Algebra.Order.Floor.Div
import Mathlib.GroupTheory.GroupAction.Ring

/-!
# Movements add up

A movement that is longer than a report can tell is sent in parts. Each part takes 127 steps off
every distance that is longer and the whole of the others, so the longest distance alone decides how
many reports there are, and what the host adds up is the movement that was asked for.
-/

namespace Deskhand.Hid

namespace PointerReport

/-- The movement a report tells: along the two axes, and of the wheel. -/
def travel (r : PointerReport) : Int × Int × Int :=
  (distanceOf r.x, distanceOf r.y, distanceOf r.wheel)

/-- The longest of the three distances of a movement. -/
def reach (x y wheel : Int) : Nat := max (max x.natAbs y.natAbs) wheel.natAbs

/-! ### One report -/

/-- The byte of a distance that fits one reads as that distance. -/
theorem distanceOf_byteOf {d : Int} (hl : -128 ≤ d) (hu : d < 128) : distanceOf (byteOf d) = d := by
  have hbyte : (byteOf d).toNat = (d.emod 256).toNat := by
    have hlt : (d.emod 256).toNat < 256 := by
      have := Int.emod_lt_of_pos d (show (0 : Int) < 256 by decide)
      change (d % 256).toNat < 256
      omega
    simpa [byteOf] using Nat.mod_eq_of_lt hlt
  have hsmall : byteOf d < 128 ↔ (d.emod 256).toNat < 128 := by
    rw [UInt8.lt_iff_toNat_lt, hbyte]
    rfl
  unfold distanceOf
  simp only [hsmall, hbyte]
  change (if (d % 256).toNat < 128 then ((d % 256).toNat : Int) else (d % 256).toNat - 256) = d
  split <;> omega

theorem limit_bounds (d : Int) : -127 ≤ limit d ∧ limit d ≤ 127 := by
  unfold limit
  omega

private theorem distanceOf_byteOf_limit (d : Int) : distanceOf (byteOf (limit d)) = limit d := by
  obtain ⟨hl, hu⟩ := limit_bounds d
  exact distanceOf_byteOf (by omega) (by omega)

private theorem travel_moved_limit (r : PointerReport) (x y wheel : Int) :
    (r.moved (limit x) (limit y) (limit wheel)).travel = (limit x, limit y, limit wheel) := by
  simp only [travel, moved, distanceOf_byteOf_limit]

theorem natAbs_sub_limit (d : Int) : (d - limit d).natAbs = d.natAbs - 127 := by
  unfold limit
  omega

private theorem reach_sub_limit (x y wheel : Int) :
    reach (x - limit x) (y - limit y) (wheel - limit wheel) = reach x y wheel - 127 := by
  simp only [reach, natAbs_sub_limit, Nat.sub_max_sub_right]

/-! ### All reports of a movement -/

/-- There are as many reports as the longest distance needs. -/
theorem length_moves (r : PointerReport) (x y wheel : Int) :
    (r.moves x y wheel).length = reach x y wheel ⌈/⌉ 127 := by
  fun_induction moves r x y wheel with
  | case1 x y wheel h =>
    obtain ⟨rfl, rfl, rfl⟩ := h
    rfl
  | case2 x y wheel h ih =>
    have hpos : 0 < reach x y wheel := by
      unfold reach
      omega
    rw [List.length_cons, ih, reach_sub_limit, Nat.ceilDiv_eq_add_pred_div,
      Nat.ceilDiv_eq_add_pred_div]
    omega

private theorem sum_travel_moves (r : PointerReport) (x y wheel : Int) :
    ((r.moves x y wheel).map travel).sum = (x, y, wheel) := by
  fun_induction moves r x y wheel with
  | case1 x y wheel h =>
    obtain ⟨rfl, rfl, rfl⟩ := h
    rfl
  | case2 x y wheel h ih =>
    rw [List.map_cons, List.sum_cons, ih, travel_moved_limit]
    simp

/-- Every report has the buttons as they are and tells at most 127 steps each way. -/
theorem mem_moves {r s : PointerReport} {x y wheel : Int} (hs : s ∈ r.moves x y wheel) :
    s.buttons = r.buttons ∧
      ∀ b ∈ [s.x, s.y, s.wheel], -127 ≤ distanceOf b ∧ distanceOf b ≤ 127 := by
  fun_induction moves r x y wheel with
  | case1 x y wheel h => cases hs
  | case2 x y wheel h ih =>
    rcases List.mem_cons.mp hs with rfl | hs
    · have hpart (d : Int) :
          -127 ≤ distanceOf (byteOf (limit d)) ∧ distanceOf (byteOf (limit d)) ≤ 127 := by
        rw [distanceOf_byteOf_limit]
        exact limit_bounds d
      refine ⟨rfl, ?_⟩
      simp only [moved, List.forall_mem_cons]
      exact ⟨hpart x, hpart y, hpart wheel, List.forall_mem_nil _⟩
    · exact ih hs

end PointerReport

namespace Pointer

open PointerReport (distanceOf reach travel)

private theorem update_with_room (r report : PointerReport) (events : Array Event) (room : Nat) :
    update (.ok report) ⟨r, ⟨events, room + 1⟩⟩ =
      .ok () ⟨report, ⟨events.push (.pointer report), room⟩⟩ := rfl

/-- Sending reports one after the other, with room for all of them. -/
theorem forM_update_with_room (r : PointerReport) (reports : List PointerReport)
    (events : Array Event) (spare : Nat) :
    reports.forM (fun report ↦ update (.ok report)) ⟨r, ⟨events, reports.length + spare⟩⟩ =
      .ok () ⟨reports.getLastD r, ⟨events ++ (reports.map Event.pointer).toArray, spare⟩⟩ := by
  induction reports generalizing r events with
  | nil =>
    rw [List.map_nil, Array.append_empty, List.length_nil, Nat.zero_add]
    rfl
  | cons report rest ih =>
    have hroom : (report :: rest).length + spare = rest.length + spare + 1 := by
      rw [List.length_cons]
      omega
    rw [List.forM_eq_forM, List.forM_cons, hroom, bind_of_ok (update_with_room ..)]
    rw [← List.forM_eq_forM, ih, List.getLastD_cons]
    simp

/-- A movement of any distances ends well, given room for its reports, whatever buttons are down
(`Mouse.move`). It sends one report for every 127 steps of its longest distance, the last of them
maybe for fewer. Each report has the buttons as they were and tells from -127 to 127 steps each way,
and added up they tell the whole movement. -/
theorem move_adds_up (r : PointerReport) (x y wheel : Int) : ∃ reports : List PointerReport,
    reports.length = reach x y wheel ⌈/⌉ 127 ∧
    (∀ s ∈ reports, s.buttons = r.buttons ∧
      ∀ b ∈ [s.x, s.y, s.wheel], -127 ≤ distanceOf b ∧ distanceOf b ≤ 127) ∧
    (reports.map travel).sum = (x, y, wheel) ∧
    ∀ events spare, move x y wheel ⟨r, ⟨events, reports.length + spare⟩⟩ =
      .ok () ⟨reports.getLastD r, ⟨events ++ (reports.map Event.pointer).toArray, spare⟩⟩ := by
  refine ⟨r.moves x y wheel, r.length_moves x y wheel, fun s ↦ PointerReport.mem_moves,
    r.sum_travel_moves x y wheel, fun events spare ↦ ?_⟩
  rw [move_eq_forM]
  exact forM_update_with_room r _ events spare

end Pointer

end Deskhand.Hid
