import Concordance.Intersection.Block
import Concordance.Proofs.Intersection.Lanes
import Concordance.Proofs.Intersection.Scalar

/-!
# A block join finds what a merge join finds

Two blocks match the words of their common keys (`matchLanes_eq`). The blocks that are left
behind have met all the words they can meet (`meet_step_lt`, `meet_step_eq`, `meet_step_gt`), and
either way to join owes the carries of the left words up to the last right word
(`carries_firstPassFrom`, `carries_scalar`). So the passes yield the words of the merge join
(`firstPass_eq`, `secondPass_eq`).
-/

namespace Concordance

namespace Lanes

open Postings (Ascending)

/-- Splitting a list changes neither its words nor their order. -/
theorem append_of_split? {words rest : List Word} {lanes : Lanes}
    (h : split? words = some (lanes, rest)) : lanes.toList ++ rest = words := by
  unfold split? at h
  split at h
  · rw [Option.some.injEq, Prod.mk.injEq] at h
    rw [← h.1, ← h.2]
    rfl
  · cases h

/-- The last lane has the largest key. -/
theorem slot_le_last {lanes : Lanes} (h : Ascending lanes.toList) {word : Word}
    (hword : word ∈ lanes.toList) : word.slot ≤ (lanes.get 7).slot := by
  rw [toList_eq] at h hword
  simp only [Postings.ascending_cons, List.mem_cons, List.not_mem_nil, or_false] at h hword
  rcases hword with rfl | rfl | rfl | rfl | rfl | rfl | rfl | rfl
  all_goals grind

/-- The last lane is one of the lanes. -/
theorem last_mem (lanes : Lanes) : lanes.get 7 ∈ lanes.toList := by
  rw [toList_eq]
  simp

end Lanes

namespace Block

open Postings (Ascending Meet)

variable {length : UInt32} {lefts rights : Postings}

/-! ## Matching lanes -/

/-- The marks of the lanes that match. -/
def marks (left right : Lanes) : LaneMask × LaneMask :=
  Lanes.commonLanes (left.map Word.key) (right.map Word.key)

/-- The marked lanes on the left are the words whose keys occur on the right. -/
theorem chosen_marks_left (left right : Lanes) :
    left.chosen (marks left right).1 =
      Postings.common left.toList right.toList := by
  refine Lanes.chosen_eq_filter fun lane hl => ?_
  rw [marks, Bool.eq_iff_iff, Lanes.mem_of_commonLanes_left, decide_eq_true_eq, Vector.getElem_map,
    Vector.toList_map]

/-- The marked lanes on the right are the words whose keys occur on the left. -/
theorem chosen_marks_right (left right : Lanes) :
    right.chosen (marks left right).2 =
      Postings.common right.toList left.toList := by
  refine Lanes.chosen_eq_filter fun lane hl => ?_
  rw [marks, Bool.eq_iff_iff, Lanes.mem_of_commonLanes_right, decide_eq_true_eq, Vector.getElem_map,
    Vector.toList_map]

/-- The word of two matching lanes. -/
def matchLane (move : Word → Word) (left right : Word) : Word :=
  left.key ||| (move (left &&& 0xFFFF) &&& (right &&& 0xFFFF))

/-- Matching lanes are compressed on both sides, paired, and stored. -/
theorem matchLanes_eq_store (move : Word → Word) (left right : Lanes) :
    matchLanes move left right =
      Lanes.store (Vector.zipWith (matchLane move) (left.compress (marks left right).1)
        (right.compress (marks left right).2)) (marks left right).1 := rfl

/-- Two blocks match the words of their common keys. -/
theorem matchLanes_eq (move : Word → Word) {left right : Lanes} (hleft : Ascending left.toList)
    (hright : Ascending right.toList) :
    matchLanes move left right =
      List.zipWith (matchLane move) (Postings.common left.toList right.toList)
        (Postings.common right.toList left.toList) := by
  rw [← chosen_marks_left, ← chosen_marks_right, ← Lanes.take_compress,
    ← Lanes.take_compress]
  have hlength := congrArg List.length (Postings.map_slot_common hleft hright)
  rw [List.length_map, List.length_map, ← chosen_marks_left, ← chosen_marks_right,
    Lanes.length_chosen, Lanes.length_chosen] at hlength
  rw [matchLanes_eq_store, Lanes.store, Vector.toList_zipWith, List.take_zipWith, ← hlength]

/-! ## Bitmaps in lanes -/

/-- Masking the low half of a word leaves its bitmap. -/
theorem and_low_eq (word : Word) : word &&& 0xFFFF = word.bitmap.toUInt64 := by
  have hones : (0xFFFF : UInt64).toNat = 2 ^ 16 - 1 := rfl
  apply UInt64.toNat_inj.1
  rw [UInt64.toNat_and, UInt16.toNat_toUInt64, Word.toNat_bitmap, hones,
    Nat.and_two_pow_sub_one_eq_mod]

/-- Bits that are masked by a bitmap are a bitmap. -/
theorem and_toUInt64 {value : Word} {bits mask : UInt16}
    (h : ∀ b < 16, value.toNat.testBit b = bits.toNat.testBit b) :
    value &&& mask.toUInt64 = (bits &&& mask).toUInt64 := by
  apply UInt64.toNat_inj.1
  apply Nat.eq_of_testBit_eq
  intro b
  rw [UInt64.toNat_and, UInt16.toNat_toUInt64, UInt16.toNat_toUInt64, UInt16.toNat_and,
    Nat.testBit_and, Nat.testBit_and]
  by_cases hb : b < 16
  · rw [h b hb]
  · rw [Bitmap.testBit_of_le mask (Nat.le_of_not_lt hb), Bool.and_false, Bool.and_false]

/-- Lanes of 64 bits are shifted like bitmaps of 16 bits. -/
theorem testBit_shiftLane (bits : UInt16) {b : Nat} (hb : b < 16) :
    (shiftLane (.ofLength length) bits.toUInt64).toNat.testBit b =
      ((Offset.ofLength length).shifted bits).toNat.testBit b := by
  rw [Offset.shifted, Offset.testBit_shiftLeft _ _ hb, shiftLane, UInt64.toNat_shiftLeft,
    UInt16.toNat_toUInt64, UInt16.toNat_toUInt64, Offset.toNat_places,
    Nat.mod_eq_of_lt (show length.toNat % 16 < 64 by omega), Nat.testBit_mod_two_pow,
    Nat.testBit_shiftLeft]
  simp [show b < 64 by omega]

/-- A lane rotated by places agrees with the bits that arrive from the group before. -/
theorem testBit_carryLane (bits : UInt16) {b : Nat} (hb : b < 16) :
    (carryLane (.ofLength length) bits.toUInt64).toNat.testBit b =
      ((Offset.ofLength length).carriedBits bits).toNat.testBit b := by
  have hle : (Offset.ofLength length).places.toUInt64 ≤ 16 := by
    rw [UInt64.le_iff_toNat_le, UInt16.toNat_toUInt64, Offset.toNat_places]
    change length.toNat % 16 ≤ 16
    omega
  have hplaces : (16 - (Offset.ofLength length).places.toUInt64).toNat =
      16 - length.toNat % 16 := by
    rw [UInt64.toNat_sub_of_le _ _ hle, UInt16.toNat_toUInt64, Offset.toNat_places]
    rfl
  have hshifted := @testBit_shiftLane length bits b hb
  rw [shiftLane, Offset.shifted, Offset.testBit_shiftLeft _ _ hb] at hshifted
  rw [Offset.testBit_carriedBits _ hb, carryLane, UInt64.toNat_and, Nat.testBit_and,
    UInt64.toNat_or, Nat.testBit_or, hshifted, UInt16.toNat_toUInt64, Offset.testBit_arriving _ hb,
    UInt64.toNat_shiftRight, hplaces, Nat.mod_eq_of_lt (show 16 - length.toNat % 16 < 64 by omega),
    Nat.testBit_shiftRight, UInt16.toNat_toUInt64]
  by_cases h : b < length.toNat % 16
  · rw [decide_eq_false (Nat.not_le.2 h), Bool.false_and, Bool.false_or, Bool.and_comm]
  · rw [decide_eq_false h, Bool.and_false, Bool.false_and]

/-- Two lanes are matched like two words whose left one is shifted. -/
theorem matchLane_shiftLane (left right : Word) :
    matchLane (shiftLane (.ofLength length)) left right =
      (Offset.ofLength length).matchShifted left right := by
  rw [matchLane, Offset.matchShifted, and_low_eq, and_low_eq,
    and_toUInt64 fun b hb => testBit_shiftLane _ hb]

/-- Two lanes are matched like a carry and a word. -/
theorem matchLane_carryLane (left right : Word) :
    matchLane (carryLane (.ofLength length)) left right =
      (Offset.ofLength length).matchCarried left right := by
  rw [matchLane, Offset.matchCarried, and_low_eq, and_low_eq,
    and_toUInt64 fun b hb => testBit_carryLane _ hb]

/-- A lane has a bit that leaves its group exactly if the word has one. -/
theorem overflows_eq (offset : Offset) (word : Word) :
    decide (word &&& offset.leaving.toUInt64 ≠ 0) = offset.overflows word := by
  have hword : word &&& offset.leaving.toUInt64 = (word.bitmap &&& offset.leaving).toUInt64 :=
    and_toUInt64 fun b hb => (word.testBit_bitmap hb).symm
  rw [Offset.overflows, hword]
  refine decide_eq_decide.2 (not_congr ?_)
  rw [← UInt64.toNat_inj, ← UInt16.toNat_inj, UInt16.toNat_toUInt64]
  rfl

/-- The carries of some words are the next words of those that overflow. -/
theorem flatMap_carry (offset : Offset) (words : Postings) :
    words.flatMap offset.carry = (words.filter offset.overflows).map (· + Word.groupStep) := by
  induction words with
  | nil => rfl
  | cons word words ih =>
      rw [List.flatMap_cons, List.filter_cons, ih, Offset.carry]
      split
      · rfl
      · rfl

/-- The carries of a block are those of its words. -/
theorem carryLanes_eq (offset : Offset) (left : Lanes) :
    carryLanes offset left = left.toList.flatMap offset.carry := by
  let mask := LaneMask.ofLanes fun lane => left.get lane &&& offset.leaving.toUInt64 ≠ 0
  have hchosen : left.chosen mask = left.toList.filter offset.overflows := by
    refine Lanes.chosen_eq_filter fun lane hl => ?_
    rw [LaneMask.getElem_ofLanes]
    exact overflows_eq offset left[lane]
  have hmoved : Lanes.chosen (left.map (· + Word.groupStep)) mask =
      (left.chosen mask).map (· + Word.groupStep) := by
    rw [Lanes.chosen, Lanes.chosen, List.map_map]
    refine List.map_congr_left fun lane _ => ?_
    exact Vector.getElem_map _ lane.isLt
  rw [flatMap_carry, ← hchosen, ← hmoved, ← Lanes.take_compress]
  rfl

/-! ## Words of two blocks that meet -/

/-- Lanes that ascend still do after they were moved by whole groups. -/
theorem ascending_moved {left : Lanes} (hleft : Ascending left.toList)
    (hshifts : Offset.Shifts length left.toList) :
    Ascending (left.map (Offset.ofLength length).shiftGroups).toList := by
  rw [Vector.toList_map]
  refine List.pairwise_map.2 (List.Pairwise.imp_of_mem ?_ hleft)
  intro first second hfirst hsecond hlt
  have hslot := Word.key_lt_iff.1 hlt
  rw [Word.key_lt_iff, Offset.slot_shiftGroups (hshifts.slot_lt hfirst),
    Offset.slot_shiftGroups (hshifts.slot_lt hsecond)]
  omega

/-- The first pass matches the words of two blocks that meet. -/
theorem mem_matchLanes_shiftLane {left right : Lanes} (hleft : Ascending left.toList)
    (hright : Ascending right.toList) (hshifts : Offset.Shifts length left.toList) {word : Word} :
    word ∈ matchLanes (shiftLane (.ofLength length))
        (left.map (Offset.ofLength length).shiftGroups) right ↔
      Meet (length.toNat / 16) left.toList right.toList fun left right =>
        word = (Offset.ofLength length).matchShifted
          ((Offset.ofLength length).shiftGroups left) right := by
  rw [matchLanes_eq _ (ascending_moved hleft hshifts) hright,
    Postings.mem_zipWith_common (ascending_moved hleft hshifts) hright]
  constructor
  · intro h
    obtain ⟨moved, hmoved, other, hother, heq, rfl⟩ := h
    rw [Vector.toList_map] at hmoved
    obtain ⟨origin, horigin, rfl⟩ := List.mem_map.1 hmoved
    rw [Offset.slot_shiftGroups (hshifts.slot_lt horigin)] at heq
    exact ⟨origin, horigin, other, hother, heq, matchLane_shiftLane _ _⟩
  · intro h
    obtain ⟨origin, horigin, other, hother, heq, rfl⟩ := h
    refine ⟨(Offset.ofLength length).shiftGroups origin, ?_, other, hother, ?_,
      (matchLane_shiftLane _ _).symm⟩
    · rw [Vector.toList_map]
      exact List.mem_map_of_mem horigin
    · rw [Offset.slot_shiftGroups (hshifts.slot_lt horigin)]
      exact heq

/-- The second pass matches the words of two blocks that meet. -/
theorem mem_matchLanes_carryLane {left right : Lanes} (hleft : Ascending left.toList)
    (hright : Ascending right.toList) {word : Word} :
    word ∈ matchLanes (carryLane (.ofLength length)) left right ↔
      Meet 0 left.toList right.toList fun left right =>
        word = (Offset.ofLength length).matchCarried left right := by
  rw [matchLanes_eq _ hleft hright, Postings.mem_zipWith_common hleft hright]
  simp only [matchLane_carryLane]

/-- A match has the key of the left lane. -/
theorem slot_matchLane (move : Word → Word) (left right : Word) :
    (matchLane move left right).slot = left.slot := by
  rw [matchLane, and_low_eq right,
    and_toUInt64 fun b hb => (Word.testBit_bitmap (move (left &&& 0xFFFF)) hb).symm]
  exact Word.slot_key_or left _

/-- What two blocks match ascends. -/
theorem ascending_matchLanes (move : Word → Word) {left right : Lanes}
    (hleft : Ascending left.toList) (hright : Ascending right.toList) :
    Ascending (matchLanes move left right) := by
  rw [matchLanes_eq move hleft hright, Postings.ascending_iff_map_slot]
  exact (Postings.ascending_iff_map_slot.1 (hleft.common right.toList)).sublist
    (Ordered.sublist_zipWith (slot_matchLane move) _ _)

/-! ## Steps of a pass -/

variable {left right : Lanes} {laterLefts laterRights : List Word} {groups : Nat}
  {related : Word → Word → Prop}

/-- If the left lanes end first, the words that meet are met by these lanes or by later left words.
-/
theorem meet_step_lt (hlefts : Ascending (left.toList ++ laterLefts))
    (hrights : Ascending (right.toList ++ laterRights))
    (h : (left.get 7).slot + groups < (right.get 7).slot) :
    Meet groups (left.toList ++ laterLefts) (right.toList ++ laterRights) related ↔
      Meet groups left.toList right.toList related ∨
        Meet groups laterLefts (right.toList ++ laterRights) related := by
  refine Postings.meet_leaving_left fun l hl r hr => ?_
  have hle := Lanes.slot_le_last hlefts.append.1 hl
  have hlt := hrights.append.2.2 _ right.last_mem r hr
  omega

/-- If lanes end in one group, the words that meet are met in these lanes or behind them on both
sides. -/
theorem meet_step_eq (hlefts : Ascending (left.toList ++ laterLefts))
    (hrights : Ascending (right.toList ++ laterRights))
    (h : (left.get 7).slot + groups = (right.get 7).slot) :
    Meet groups (left.toList ++ laterLefts) (right.toList ++ laterRights) related ↔
      Meet groups left.toList right.toList related ∨
        Meet groups laterLefts laterRights related := by
  refine Postings.meet_leaving_both (fun l hl r hr => ?_) fun l hl r hr => ?_
  · have hle := Lanes.slot_le_last hlefts.append.1 hl
    have hlt := hrights.append.2.2 _ right.last_mem r hr
    omega
  · have hle := Lanes.slot_le_last hrights.append.1 hr
    have hlt := hlefts.append.2.2 _ left.last_mem l hl
    omega

/-- If the right lanes end first, the words that meet are met by these lanes or by later right
words. -/
theorem meet_step_gt (hlefts : Ascending (left.toList ++ laterLefts))
    (hrights : Ascending (right.toList ++ laterRights))
    (h : (right.get 7).slot < (left.get 7).slot + groups) :
    Meet groups (left.toList ++ laterLefts) (right.toList ++ laterRights) related ↔
      Meet groups left.toList right.toList related ∨
        Meet groups (left.toList ++ laterLefts) laterRights related := by
  refine Postings.meet_leaving_right fun l hl r hr => ?_
  have hle := Lanes.slot_le_last hrights.append.1 hr
  have hlt := hlefts.append.2.2 _ left.last_mem l hl
  omega

/-- How the last keys of two blocks compare. -/
theorem lastKey_lt_iff (hshifts : Offset.Shifts length (left.toList ++ laterLefts)) :
    (left.get 7).key + (Offset.ofLength length).groups < (right.get 7).key ↔
      (left.get 7).slot + length.toNat / 16 < (right.get 7).slot :=
  Offset.key_add_groups_lt_iff (hshifts.slot_lt (List.mem_append_left _ left.last_mem))

/-- The last lanes have one key exactly if they stand in one group after the shift. -/
theorem lastKey_eq_iff (hshifts : Offset.Shifts length (left.toList ++ laterLefts)) :
    (left.get 7).key + (Offset.ofLength length).groups = (right.get 7).key ↔
      (left.get 7).slot + length.toNat / 16 = (right.get 7).slot :=
  Offset.key_add_groups_eq_iff (hshifts.slot_lt (List.mem_append_left _ left.last_mem))

/-- Without the last left key below the last right one or equal to it, the right lanes end first. -/
theorem lastKey_gt (hshifts : Offset.Shifts length (left.toList ++ laterLefts))
    (hnlt : ¬ (left.get 7).key + (Offset.ofLength length).groups < (right.get 7).key)
    (hne : ¬ (left.get 7).key + (Offset.ofLength length).groups = (right.get 7).key) :
    (right.get 7).slot < (left.get 7).slot + length.toNat / 16 := by
  rw [lastKey_lt_iff hshifts] at hnlt
  rw [lastKey_eq_iff hshifts] at hne
  omega

/-! ## The first pass -/

/-- When one of the lists has no full block left, the merge join finds the rest. -/
theorem matched_finishFirst (offset : Offset) (bound : Option Word) (lefts rights : Postings) :
    (finishFirst offset bound lefts rights).matched =
      (Scalar.firstPass offset lefts rights).matched := by
  unfold finishFirst
  split
  · rw [Scalar.firstPass_of_nil offset (Or.inr rfl)]
  · rfl

/-- The first pass finds the matches of all words that meet. -/
theorem mem_matched_firstPassFrom {bound : Option Word} (hlefts : lefts.Ascending)
    (hrights : rights.Ascending) (hshifts : Offset.Shifts length lefts) {word : Word} :
    word ∈ (firstPassFrom (.ofLength length) bound lefts rights).matched ↔
      Meet (length.toNat / 16) lefts rights fun left right =>
        word = (Offset.ofLength length).matchShifted
          ((Offset.ofLength length).shiftGroups left) right := by
  -- one case for each comparison of the last keys of two whole blocks, one for short lists
  fun_induction firstPassFrom (.ofLength length) bound lefts rights with
  | case1 lefts rights left laterLefts right laterRights hl hr moved leftLast rightLast matched
      hlt ih =>
      obtain rfl := Lanes.append_of_split? hl
      obtain rfl := Lanes.append_of_split? hr
      rw [meet_step_lt hlefts hrights ((lastKey_lt_iff hshifts).1 hlt), FirstPass.matched_prepend,
        List.mem_append, ih hlefts.append.2.1 hrights hshifts.append.2,
        mem_matchLanes_shiftLane hlefts.append.1 hrights.append.1 hshifts.append.1]
  | case2 lefts rights left laterLefts right laterRights hl hr moved leftLast rightLast matched
      hnlt heq ih =>
      obtain rfl := Lanes.append_of_split? hl
      obtain rfl := Lanes.append_of_split? hr
      rw [meet_step_eq hlefts hrights ((lastKey_eq_iff hshifts).1 heq), FirstPass.matched_prepend,
        List.mem_append, ih hlefts.append.2.1 hrights.append.2.1 hshifts.append.2,
        mem_matchLanes_shiftLane hlefts.append.1 hrights.append.1 hshifts.append.1]
  | case3 lefts rights left laterLefts right laterRights hl hr moved leftLast rightLast matched
      hnlt hne ih =>
      obtain rfl := Lanes.append_of_split? hl
      obtain rfl := Lanes.append_of_split? hr
      have hgt := lastKey_gt hshifts hnlt hne
      rw [meet_step_gt hlefts hrights hgt, FirstPass.matched_prepend, List.mem_append,
        ih hlefts hrights.append.2.1 hshifts,
        mem_matchLanes_shiftLane hlefts.append.1 hrights.append.1 hshifts.append.1]
  | case4 lefts rights h =>
      rw [matched_finishFirst, Scalar.mem_matched_firstPass hlefts hrights hshifts]

/-! ## Carries -/

/-- A word that is not moved behind the bound owes its carry. -/
theorem lateCarries_cons {offset : Offset} {bound left : Word}
    (h : (offset.shiftGroups left).key ≤ bound) (lefts : Postings) :
    lateCarries offset bound (left :: lefts) =
      offset.carry (offset.shiftGroups left) ++ lateCarries offset bound lefts := by
  rw [lateCarries, List.map_cons, List.takeWhile_cons, if_pos (decide_eq_true h),
    List.flatMap_cons]
  rfl

/-- Words that are all moved behind the bound owe none. -/
theorem lateCarries_eq_nil {offset : Offset} {bound : Word}
    (h : ∀ left ∈ lefts, ¬ (offset.shiftGroups left).key ≤ bound) :
    lateCarries offset bound lefts = [] := by
  cases lefts with
  | nil => rfl
  | cons left lefts =>
      have hbehind := h left List.mem_cons_self
      rw [lateCarries, List.map_cons, List.takeWhile_cons, if_neg (by rwa [decide_eq_true_eq])]
      rfl

variable {last : Word}

/-- How the key of a moved word compares with the last key. -/
theorem moved_key_le_iff (hshifts : Offset.Shifts length lefts) {left : Word}
    (hleft : left ∈ lefts) :
    ((Offset.ofLength length).shiftGroups left).key ≤ last.key ↔
      left.slot + length.toNat / 16 ≤ last.slot := by
  rw [Word.key_le_iff, Offset.slot_shiftGroups (hshifts.slot_lt hleft)]

/-- A block that is left behind owes the carries of all its words. -/
theorem lateCarries_block (hlefts : Ascending (left.toList ++ laterLefts))
    (hshifts : Offset.Shifts length (left.toList ++ laterLefts))
    (h : (left.get 7).slot + length.toNat / 16 ≤ last.slot) :
    lateCarries (.ofLength length) last.key (left.toList ++ laterLefts) =
      carryLanes (.ofLength length) (left.map (Offset.ofLength length).shiftGroups) ++
        lateCarries (.ofLength length) last.key laterLefts := by
  have hbelow : ∀ word ∈ left.toList,
      ((Offset.ofLength length).shiftGroups word).key ≤ last.key := by
    intro word hword
    have hle := Lanes.slot_le_last hlefts.append.1 hword
    exact (moved_key_le_iff hshifts (List.mem_append_left _ hword)).2 (by omega)
  rw [carryLanes_eq, Vector.toList_map]
  generalize left.toList = words at hbelow
  induction words with
  | nil => rfl
  | cons word words ih =>
      rw [List.cons_append, lateCarries_cons (hbelow word List.mem_cons_self),
        ih fun other hother => hbelow other (List.mem_cons_of_mem _ hother), List.map_cons,
        List.flatMap_cons, List.append_assoc]

/-- The merge join owes the carries of the left words up to the last right word, as long as the
right words that are left over reach as far as those left words. -/
theorem carries_scalar (hlefts : lefts.Ascending) (hshifts : Offset.Shifts length lefts)
    (hbelow : ∀ right ∈ rights, right.slot ≤ last.slot)
    (hreach : ∀ left ∈ lefts, left.slot + length.toNat / 16 ≤ last.slot →
      ∃ right ∈ rights, left.slot + length.toNat / 16 ≤ right.slot) :
    (Scalar.firstPass (.ofLength length) lefts rights).carries =
      lateCarries (.ofLength length) last.key lefts := by
  fun_induction Scalar.firstPass (.ofLength length) lefts rights with
  | case1 left lefts right rights moved hkey ih =>
      have hslot := (Scalar.moved_key_eq_iff hshifts).1 hkey
      have hle := hbelow right List.mem_cons_self
      obtain ⟨hfirst, hlater⟩ := Postings.ascending_cons.1 hlefts
      rw [FirstPass.carries_prepend,
        lateCarries_cons ((moved_key_le_iff hshifts List.mem_cons_self).2 (by omega)),
        ih hlater hshifts.tail
          (fun other hother => hbelow other (List.mem_cons_of_mem _ hother)) ?_]
      intro l hl hend
      obtain ⟨r, hr, hle'⟩ := hreach l (List.mem_cons_of_mem _ hl) hend
      rcases List.mem_cons.1 hr with rfl | hr
      · have hlt := hfirst l hl
        omega
      · exact ⟨r, hr, hle'⟩
  | case2 left lefts right rights moved hne hlt ih =>
      have hslot := (Scalar.moved_key_lt_iff hshifts).1 hlt
      have hle := hbelow right List.mem_cons_self
      rw [FirstPass.carries_prepend,
        lateCarries_cons ((moved_key_le_iff hshifts List.mem_cons_self).2 (by omega)),
        ih (Postings.ascending_cons.1 hlefts).2 hshifts.tail hbelow
          fun l hl => hreach l (List.mem_cons_of_mem _ hl)]
  | case3 left lefts right rights moved hne hnlt ih =>
      have hge := mt (Scalar.moved_key_lt_iff hshifts).2 hnlt
      have hne := mt (Scalar.moved_key_eq_iff hshifts).2 hne
      refine ih hlefts hshifts (fun other hother => hbelow other (List.mem_cons_of_mem _ hother)) ?_
      intro l hl hend
      obtain ⟨r, hr, hle⟩ := hreach l hl hend
      rcases List.mem_cons.1 hr with rfl | hr
      -- the right word that is passed lies below all left words
      · rcases List.mem_cons.1 hl with rfl | hl
        · omega
        · have hlt := (Postings.ascending_cons.1 hlefts).1 l hl
          omega
      · exact ⟨r, hr, hle⟩
  | case4 lefts rights h =>
      refine (lateCarries_eq_nil fun l hl hle => ?_).symm
      obtain ⟨r, hr, -⟩ := hreach l hl ((moved_key_le_iff hshifts hl).1 hle)
      rcases Scalar.eq_nil_or_eq_nil h with rfl | rfl
      · cases hl
      · cases hr

/-- With right words left over, the last of them is the last right word. -/
theorem carries_scalar_of_getLast (hlefts : lefts.Ascending) (hrights : rights.Ascending)
    (hshifts : Offset.Shifts length lefts) (hlast : rights.getLast? = some last) :
    (Scalar.firstPass (.ofLength length) lefts rights).carries =
      lateCarries (.ofLength length) last.key lefts :=
  carries_scalar hlefts hshifts (fun _ hright => hrights.slot_le_getLast hlast hright)
    fun _ _ hle => ⟨last, List.mem_of_getLast? hlast, hle⟩

/-- The end of the first pass leaves the carries of the left words up to the last right word. -/
theorem carries_finishFirst (hlefts : lefts.Ascending) (hrights : rights.Ascending)
    (hshifts : Offset.Shifts length lefts) (hlast : rights = [] ∨ rights.getLast? = some last) :
    (finishFirst (.ofLength length) (some last.key) lefts rights).carries =
      lateCarries (.ofLength length) last.key lefts := by
  cases rights with
  | nil => rfl
  | cons right rights =>
      exact carries_scalar_of_getLast hlefts hrights hshifts
        (hlast.resolve_left (List.cons_ne_nil _ _))

/-- A list that is not used up ends with the last word of the right list. -/
theorem getLast_later {first second : List Word}
    (h : first ++ second = [] ∨ (first ++ second).getLast? = some last) :
    second = [] ∨ second.getLast? = some last := by
  rcases List.eq_nil_or_concat second with rfl | ⟨earlier, word, rfl⟩
  · exact Or.inl rfl
  · refine Or.inr (h.elim (fun hnil => ?_) fun hlast => ?_)
    · simp at hnil
    · simpa [← List.append_assoc] using hlast

/-- No lane stands behind the last right word. -/
theorem slot_last_le (hrights : Ascending (right.toList ++ laterRights))
    (hlast : right.toList ++ laterRights = [] ∨
      (right.toList ++ laterRights).getLast? = some last) :
    (right.get 7).slot ≤ last.slot := by
  have hmem : right.get 7 ∈ right.toList ++ laterRights := List.mem_append_left _ right.last_mem
  rcases hlast with hnil | hlast
  · rw [hnil] at hmem
    cases hmem
  · exact hrights.slot_le_getLast hlast hmem

/-- The first pass owes the carries of the left words up to the last right word. -/
theorem carries_firstPassFrom (hlefts : lefts.Ascending) (hrights : rights.Ascending)
    (hshifts : Offset.Shifts length lefts) (hlast : rights = [] ∨ rights.getLast? = some last) :
    (firstPassFrom (.ofLength length) (some last.key) lefts rights).carries =
      lateCarries (.ofLength length) last.key lefts := by
  fun_induction firstPassFrom (.ofLength length) (some last.key) lefts rights with
  | case1 lefts rights left laterLefts right laterRights hl hr moved leftLast rightLast matched
      hlt ih =>
      obtain rfl := Lanes.append_of_split? hl
      obtain rfl := Lanes.append_of_split? hr
      have hle := slot_last_le hrights hlast
      have hslot := (lastKey_lt_iff hshifts).1 hlt
      rw [lateCarries_block hlefts hshifts (by omega), FirstPass.carries_prepend,
        ih hlefts.append.2.1 hrights hshifts.append.2 hlast]
  | case2 lefts rights left laterLefts right laterRights hl hr moved leftLast rightLast matched
      hnlt heq ih =>
      obtain rfl := Lanes.append_of_split? hl
      obtain rfl := Lanes.append_of_split? hr
      have hle := slot_last_le hrights hlast
      have hslot := (lastKey_eq_iff hshifts).1 heq
      rw [lateCarries_block hlefts hshifts (by omega), FirstPass.carries_prepend,
        ih hlefts.append.2.1 hrights.append.2.1 hshifts.append.2 (getLast_later hlast)]
  | case3 lefts rights left laterLefts right laterRights hl hr moved leftLast rightLast matched
      hnlt hne ih =>
      obtain rfl := Lanes.append_of_split? hr
      rw [FirstPass.carries_prepend, List.nil_append,
        ih hlefts hrights.append.2.1 hshifts (getLast_later hlast)]
  | case4 lefts rights h => exact carries_finishFirst hlefts hrights hshifts hlast

/-! ## Order -/

/-- A matched word has the slot of the right word it was found for. -/
theorem meet_slot_matchShifted (hshifts : Offset.Shifts length lefts) {word : Word}
    (h : Meet (length.toNat / 16) lefts rights fun left right =>
      word = (Offset.ofLength length).matchShifted
        ((Offset.ofLength length).shiftGroups left) right) :
    Meet (length.toNat / 16) lefts rights fun _ right => word.slot = right.slot := by
  obtain ⟨l, hl, r, hr, heq, rfl⟩ := h
  refine ⟨l, hl, r, hr, heq, ?_⟩
  rw [Offset.slot_matchShifted, Offset.slot_shiftGroups (hshifts.slot_lt hl), heq]

/-- A carried match stands where the right word of the match stands. -/
theorem meet_slot_matchCarried {word : Word}
    (h : Meet 0 lefts rights fun left right =>
      word = (Offset.ofLength length).matchCarried left right) :
    Meet 0 lefts rights fun _ right => word.slot = right.slot := by
  obtain ⟨l, hl, r, hr, heq, rfl⟩ := h
  exact ⟨l, hl, r, hr, heq, (Offset.slot_matchCarried _ l r).trans heq⟩

/-- What the first pass finds ascends. -/
theorem ascending_matched_firstPassFrom {bound : Option Word} (hlefts : lefts.Ascending)
    (hrights : rights.Ascending) (hshifts : Offset.Shifts length lefts) :
    Ascending (firstPassFrom (.ofLength length) bound lefts rights).matched := by
  have hpass : ∀ {lefts rights : Postings}, lefts.Ascending → rights.Ascending →
      Offset.Shifts length lefts →
      ∀ word ∈ (firstPassFrom (.ofLength length) bound lefts rights).matched,
        Meet (length.toNat / 16) lefts rights fun _ right => word.slot = right.slot :=
    fun hlefts hrights hshifts word hword => meet_slot_matchShifted hshifts
      ((mem_matched_firstPassFrom hlefts hrights hshifts).1 hword)
  have hblock : ∀ {left right : Lanes}, Ascending left.toList → Ascending right.toList →
      Offset.Shifts length left.toList →
      ∀ word ∈ matchLanes (shiftLane (.ofLength length))
          (left.map (Offset.ofLength length).shiftGroups) right,
        Meet (length.toNat / 16) left.toList right.toList fun _ right => word.slot = right.slot :=
    fun hleft hright hshifts word hword => meet_slot_matchShifted hshifts
      ((mem_matchLanes_shiftLane hleft hright hshifts).1 hword)
  fun_induction firstPassFrom (.ofLength length) bound lefts rights with
  | case1 lefts rights left laterLefts right laterRights hl hr moved leftLast rightLast matched
      hlt ih =>
      obtain rfl := Lanes.append_of_split? hl
      obtain rfl := Lanes.append_of_split? hr
      obtain ⟨hleft, hlaters, horder⟩ := hlefts.append
      exact Postings.ascending_append_of_meet
        (ascending_matchLanes _ (ascending_moved hleft hshifts.append.1) hrights.append.1)
        (ih hlaters hrights hshifts.append.2) (hblock hleft hrights.append.1 hshifts.append.1)
        (hpass hlaters hrights hshifts.append.2) (Or.inl horder)
  | case2 lefts rights left laterLefts right laterRights hl hr moved leftLast rightLast matched
      hnlt heq ih =>
      obtain rfl := Lanes.append_of_split? hl
      obtain rfl := Lanes.append_of_split? hr
      obtain ⟨hleft, hlaters, horder⟩ := hlefts.append
      exact Postings.ascending_append_of_meet
        (ascending_matchLanes _ (ascending_moved hleft hshifts.append.1) hrights.append.1)
        (ih hlaters hrights.append.2.1 hshifts.append.2)
        (hblock hleft hrights.append.1 hshifts.append.1)
        (hpass hlaters hrights.append.2.1 hshifts.append.2) (Or.inl horder)
  | case3 lefts rights left laterLefts right laterRights hl hr moved leftLast rightLast matched
      hnlt hne ih =>
      obtain rfl := Lanes.append_of_split? hl
      obtain rfl := Lanes.append_of_split? hr
      obtain ⟨hright, hlaters, horder⟩ := hrights.append
      exact Postings.ascending_append_of_meet
        (ascending_matchLanes _ (ascending_moved hlefts.append.1 hshifts.append.1) hright)
        (ih hlefts hlaters hshifts) (hblock hlefts.append.1 hright hshifts.append.1)
        (hpass hlefts hlaters hshifts) (Or.inr horder)
  | case4 lefts rights h =>
      rw [matched_finishFirst]
      exact Scalar.ascending_matched_firstPass hrights

/-- Without right words nothing is found, and nothing is carried over. -/
theorem firstPass_nil (offset : Offset) (lefts : Postings) : firstPass offset lefts [] = {} := by
  unfold firstPass firstPassFrom
  split
  · rename_i hr
    cases hr
  · exact Scalar.firstPass_of_nil offset (Or.inr rfl)

/-! ## The passes -/

/-- A first pass is determined by what it found and by what it carries over. -/
theorem FirstPass.ext {first second : FirstPass} (hmatched : first.matched = second.matched)
    (hcarries : first.carries = second.carries) : first = second := by
  cases first
  cases second
  cases hmatched
  cases hcarries
  rfl

/-- The block first pass yields the words of the merge join. -/
theorem firstPass_eq (hlefts : lefts.Ascending) (hrights : rights.Ascending)
    (hshifts : Offset.Shifts length lefts) :
    firstPass (.ofLength length) lefts rights =
      Scalar.firstPass (.ofLength length) lefts rights := by
  have hmatched : (firstPass (.ofLength length) lefts rights).matched =
      (Scalar.firstPass (.ofLength length) lefts rights).matched := by
    refine (ascending_matched_firstPassFrom hlefts hrights hshifts).ext
      (Scalar.ascending_matched_firstPass hrights) fun word => ?_
    rw [mem_matched_firstPassFrom hlefts hrights hshifts,
      Scalar.mem_matched_firstPass hlefts hrights hshifts]
  cases hlast : rights.getLast? with
  | none =>
      obtain rfl := List.getLast?_eq_none_iff.1 hlast
      rw [firstPass_nil, Scalar.firstPass_of_nil _ (Or.inr rfl)]
  | some last =>
      refine FirstPass.ext hmatched ?_
      rw [firstPass, hlast, Option.map_some,
        carries_firstPassFrom hlefts hrights hshifts (Or.inr hlast),
        carries_scalar_of_getLast hlefts hrights hshifts hlast]

/-- The second pass finds the matches of all carries that meet a word. -/
theorem mem_secondPass (hlefts : lefts.Ascending) (hrights : rights.Ascending) {word : Word} :
    word ∈ secondPass (.ofLength length) lefts rights ↔
      Meet 0 lefts rights fun left right =>
        word = (Offset.ofLength length).matchCarried left right := by
  fun_induction secondPass (.ofLength length) lefts rights with
  | case1 lefts rights left laterLefts right laterRights hl hr leftLast rightLast ih1 ih2 ih3 =>
      obtain rfl := Lanes.append_of_split? hl
      obtain rfl := Lanes.append_of_split? hr
      obtain ⟨hleft, hlaterLefts, -⟩ := hlefts.append
      obtain ⟨hright, hlaterRights, -⟩ := hrights.append
      rw [List.mem_append, mem_matchLanes_carryLane hleft hright]
      split
      · rename_i hlt
        rw [meet_step_lt hlefts hrights (Word.key_lt_iff.1 hlt), ih1 hlaterLefts hrights]
      · rename_i hnlt
        split
        · rename_i heq
          rw [meet_step_eq hlefts hrights (Word.key_eq_iff.1 heq), ih2 hlaterLefts hlaterRights]
        · rename_i hne
          have hslot : ¬ (left.get 7).slot < (right.get 7).slot := mt Word.key_lt_iff.2 hnlt
          have hslot' : ¬ (left.get 7).slot = (right.get 7).slot := mt Word.key_eq_iff.2 hne
          rw [meet_step_gt hlefts hrights (by omega), ih3 hlefts hlaterRights]
  | case2 lefts rights h => exact Scalar.mem_secondPass hlefts hrights

/-- What the second pass finds ascends. -/
theorem ascending_secondPass (hlefts : lefts.Ascending) (hrights : rights.Ascending) :
    Ascending (secondPass (.ofLength length) lefts rights) := by
  have hpass : ∀ {lefts rights : Postings}, lefts.Ascending → rights.Ascending →
      ∀ word ∈ secondPass (.ofLength length) lefts rights,
        Meet 0 lefts rights fun _ right => word.slot = right.slot :=
    fun hlefts hrights word hword => meet_slot_matchCarried
      ((mem_secondPass hlefts hrights).1 hword)
  fun_induction secondPass (.ofLength length) lefts rights with
  | case1 lefts rights left laterLefts right laterRights hl hr leftLast rightLast ih1 ih2 ih3 =>
      obtain rfl := Lanes.append_of_split? hl
      obtain rfl := Lanes.append_of_split? hr
      obtain ⟨hleft, hlaterLefts, horder⟩ := hlefts.append
      obtain ⟨hright, hlaterRights, horder'⟩ := hrights.append
      have hblock : ∀ word ∈ matchLanes (carryLane (.ofLength length)) left right,
          Meet 0 left.toList right.toList fun _ right => word.slot = right.slot :=
        fun word hword => meet_slot_matchCarried
          ((mem_matchLanes_carryLane hleft hright).1 hword)
      have hmatched := ascending_matchLanes (carryLane (.ofLength length)) hleft hright
      split
      · exact Postings.ascending_append_of_meet hmatched (ih1 hlaterLefts hrights) hblock
          (hpass hlaterLefts hrights) (Or.inl horder)
      · split
        · exact Postings.ascending_append_of_meet hmatched (ih2 hlaterLefts hlaterRights) hblock
            (hpass hlaterLefts hlaterRights) (Or.inl horder)
        · exact Postings.ascending_append_of_meet hmatched (ih3 hlefts hlaterRights) hblock
            (hpass hlefts hlaterRights) (Or.inr horder')
  | case2 lefts rights h => exact Scalar.ascending_secondPass hrights

/-- The block second pass yields the words of the merge join. -/
theorem secondPass_eq (hlefts : lefts.Ascending) (hrights : rights.Ascending) :
    secondPass (.ofLength length) lefts rights =
      Scalar.secondPass (.ofLength length) lefts rights := by
  refine (ascending_secondPass hlefts hrights).ext (Scalar.ascending_secondPass hrights)
    fun word => ?_
  rw [mem_secondPass hlefts hrights, Scalar.mem_secondPass hlefts hrights]

/-- **Eight lanes join as one.** For ascending lists of any lengths, both passes over blocks yield
the words of the merge join, each once and in its order: the matches, and the carries whether a
block is left behind, the merge join takes over or the right list ends with a whole block. -/
theorem block_eq_scalar (hlefts : lefts.Ascending) (hrights : rights.Ascending)
    (hshifts : Offset.Shifts length lefts) :
    firstPass (.ofLength length) lefts rights = Scalar.firstPass (.ofLength length) lefts rights ∧
      secondPass (.ofLength length) lefts rights =
        Scalar.secondPass (.ofLength length) lefts rights :=
  ⟨firstPass_eq hlefts hrights hshifts, secondPass_eq hlefts hrights⟩

/-- The only block on the right ends inside the left block, which still owes seven carries. -/
theorem block_eq_scalar_late_carries :
    firstPass (.ofLength 1)
        [Word.pack 0 0 0x8000, Word.pack 1 0 0x8000, Word.pack 2 0 0x8000, Word.pack 3 0 0x8000,
          Word.pack 4 0 0x8000, Word.pack 5 0 0x8000, Word.pack 6 0 0x8001, Word.pack 9 0 0x8000]
        [Word.pack 0 0 0x0001, Word.pack 0 1 0x0001, Word.pack 1 1 0x0001, Word.pack 2 1 0x0001,
          Word.pack 3 1 0x0001, Word.pack 4 1 0x0001, Word.pack 6 0 0x0002, Word.pack 6 1 0x0001] =
      ⟨[Word.pack 0 0 0, Word.pack 6 0 0x0002],
        [Word.pack 0 1 0x8000, Word.pack 1 1 0x8000, Word.pack 2 1 0x8000, Word.pack 3 1 0x8000,
          Word.pack 4 1 0x8000, Word.pack 5 1 0x8000, Word.pack 6 1 0x8001]⟩ := by
  have h := block_eq_scalar
    (show Ascending
        [Word.pack 0 0 0x8000, Word.pack 1 0 0x8000, Word.pack 2 0 0x8000, Word.pack 3 0 0x8000,
          Word.pack 4 0 0x8000, Word.pack 5 0 0x8000, Word.pack 6 0 0x8001,
          Word.pack 9 0 0x8000] by
      unfold Ascending
      decide)
    (show Ascending
        [Word.pack 0 0 0x0001, Word.pack 0 1 0x0001, Word.pack 1 1 0x0001, Word.pack 2 1 0x0001,
          Word.pack 3 1 0x0001, Word.pack 4 1 0x0001, Word.pack 6 0 0x0002,
          Word.pack 6 1 0x0001] by
      unfold Ascending
      decide)
    (show Offset.Shifts 1
        [Word.pack 0 0 0x8000, Word.pack 1 0 0x8000, Word.pack 2 0 0x8000, Word.pack 3 0 0x8000,
          Word.pack 4 0 0x8000, Word.pack 5 0 0x8000, Word.pack 6 0 0x8001,
          Word.pack 9 0 0x8000] by
      simp only [Offset.Shifts, List.forall_mem_cons, List.not_mem_nil, false_implies, implies_true,
        and_true]
      decide)
  rw [h.1]
  simp only [Scalar.firstPass]
  decide

end Block
end Concordance
