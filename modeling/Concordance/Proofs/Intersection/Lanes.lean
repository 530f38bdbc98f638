import Concordance.Intersection.Lanes
import Mathlib.Algebra.GroupWithZero.Nat

/-!
# What lanes have in common

`commonLanes` marks a lane exactly if its word occurs in the other block
(`mem_of_commonLanes_left`, `mem_of_commonLanes_right`), and compressing by a mask moves the words
of the marked lanes to the front in their order (`take_compress`).
-/

namespace Concordance

namespace LaneMask

/-- Setting the bits of chosen lanes one after another. -/
theorem getElem_foldl (chosen : Fin 8 → Bool) (lanes : List (Fin 8)) (mask : LaneMask)
    (lane : Nat) (h : lane < 8) :
    (lanes.foldl (fun mask lane =>
        if chosen lane then mask ||| BitVec.twoPow 8 lane.val else mask) mask)[lane] =
      (mask[lane] || lanes.any fun other => other.val = lane && chosen other) := by
  induction lanes generalizing mask with
  | nil => simp
  | cons first rest ih =>
      rw [List.foldl_cons, ih, List.any_cons, ← Bool.or_assoc]
      congr 1
      by_cases hc : chosen first
      · simp [hc, eq_comm]
      · simp [hc]

/-- The marks are those that were asked for, lane by lane. -/
theorem getElem_ofLanes (chosen : Fin 8 → Bool) (lane : Nat) (h : lane < 8) :
    (ofLanes chosen)[lane] = chosen ⟨lane, h⟩ := by
  rw [ofLanes, getElem_foldl, Bool.eq_iff_iff, Bool.or_eq_true, List.any_eq_true]
  constructor
  · rintro (hzero | ⟨other, -, hother⟩)
    · simp at hzero
    · rw [Bool.and_eq_true, decide_eq_true_eq] at hother
      obtain ⟨rfl, hchosen⟩ := hother
      exact hchosen
  · intro hchosen
    refine Or.inr ⟨⟨lane, h⟩, List.mem_finRange _, ?_⟩
    rw [hchosen, Bool.and_true]
    exact decide_eq_true rfl

/-- A mask has at most eight lanes. -/
theorem length_toList_le (mask : LaneMask) : mask.toList.length ≤ 8 := by
  have h := List.length_filter_le (fun lane : Fin 8 => mask.getLsbD lane.val) (List.finRange 8)
  rwa [List.length_finRange] at h

end LaneMask

namespace Lanes

/-! ## Common lanes -/

/-- Lanes are compared one by one. -/
theorem getElem_equal (left right : Lanes) (lane : Nat) (h : lane < 8) :
    (equal left right)[lane] = decide (left[lane] = right[lane]) :=
  LaneMask.getElem_ofLanes _ lane h

/-- A rotation reads the lanes from another one on, and begins again behind the last one. -/
theorem getElem_rotate (lanes : Lanes) (count lane : Nat) (h : lane < 8) :
    (lanes.rotate count)[lane] = lanes[(lane + count) % 8] := by
  rw [rotate, Vector.getElem_ofFn]
  rfl

/-- The words of a block, written out. -/
theorem toList_eq (lanes : Lanes) :
    lanes.toList = [lanes.get 0, lanes.get 1, lanes.get 2, lanes.get 3, lanes.get 4, lanes.get 5,
      lanes.get 6, lanes.get 7] := by
  apply List.ext_getElem
  · simp
  · intro lane hl _
    have h : lane < 8 := by simpa using hl
    match lane, h with
    | 0, _ | 1, _ | 2, _ | 3, _ | 4, _ | 5, _ | 6, _ | 7, _ => exact Vector.getElem_toList hl

/-- A lane of the left block is marked if its word occurs in the right block. -/
theorem mem_of_commonLanes_left (left right : Lanes) (lane : Nat) (h : lane < 8) :
    (commonLanes left right).1[lane] = true ↔ left[lane] ∈ right.toList := by
  -- Each of the eight rotations and swaps brings another right lane to the lane looked at.
  have hlist : right.toList = [right[0], right[1], right[2], right[3], right[4], right[5], right[6],
      right[7]] := right.toList_eq
  rw [hlist]
  match lane, h with
  | 0, _ | 1, _ | 2, _ | 3, _ | 4, _ | 5, _ | 6, _ | 7, _ =>
      simp [commonLanes, BitVec.getElem_or, BitVec.getElem_rotateLeft, getElem_equal,
        getElem_rotate, swapPairs]
      grind

/-- A lane of the right block is marked if its word occurs in the left block. -/
theorem mem_of_commonLanes_right (left right : Lanes) (lane : Nat) (h : lane < 8) :
    (commonLanes left right).2[lane] = true ↔ right[lane] ∈ left.toList := by
  have hlist : left.toList = [left[0], left[1], left[2], left[3], left[4], left[5], left[6],
      left[7]] := left.toList_eq
  rw [hlist]
  match lane, h with
  | 0, _ | 1, _ | 2, _ | 3, _ | 4, _ | 5, _ | 6, _ | 7, _ =>
      simp [commonLanes, BitVec.getElem_or, getElem_equal, getElem_rotate, swapPairs]
      grind

/-! ## Chosen lanes -/

/-- The words of the lanes of a mask. -/
def chosen (lanes : Lanes) (mask : LaneMask) : List Word :=
  mask.toList.map lanes.get

/-- As many lanes are chosen as are marked. -/
theorem length_chosen (lanes : Lanes) (mask : LaneMask) :
    (lanes.chosen mask).length = mask.toList.length :=
  List.length_map _

/-- A mask that marks the lanes whose word satisfies a test chooses these words. -/
theorem chosen_eq_filter {lanes : Lanes} {mask : LaneMask} {test : Word → Bool}
    (h : ∀ lane (hl : lane < 8), mask[lane] = test lanes[lane]) :
    lanes.chosen mask = lanes.toList.filter test := by
  have hlist : lanes.toList = (List.finRange 8).map lanes.get := by
    rw [toList_eq]
    rfl
  rw [hlist, List.filter_map, chosen, LaneMask.toList]
  congr 1
  apply List.filter_congr
  intro lane _
  exact (BitVec.getLsbD_eq_getElem lane.isLt).trans (h lane.val lane.isLt)

/-- Compressed lanes are the chosen ones, with zeros behind them. -/
theorem getElem_compress (lanes : Lanes) (mask : LaneMask) (lane : Nat) (h : lane < 8) :
    (lanes.compress mask)[lane] = (lanes.chosen mask).getD lane 0 :=
  Vector.getElem_ofFn h

/-- Compressing moves the chosen words to the front. -/
theorem take_compress (lanes : Lanes) (mask : LaneMask) :
    (lanes.compress mask).toList.take mask.toList.length = lanes.chosen mask := by
  have hle := mask.length_toList_le
  apply List.ext_getElem
  · rw [length_chosen, List.length_take, Vector.length_toList]
    omega
  · intro place h1 h2
    rw [List.getElem_take, Vector.getElem_toList, getElem_compress]
    exact (List.getElem_eq_getD 0).symm

end Lanes
end Concordance
