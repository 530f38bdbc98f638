import Concordance.Intersection.Scalar
import Concordance.Proofs.Intersection.Meet
import Concordance.Proofs.Intersection.Offset

/-!
# What a merge join finds

For lists with ascending keys the first pass matches every left word with the right word of the
group it is moved to, and owes the carry of every left word that is not moved behind the last
right word (`mem_matched_firstPass`, `mem_carries_firstPass`). The second pass matches every carry
with the right word of its group (`mem_secondPass`). The results ascend again.
-/

namespace Concordance

/-- No word of the list leaves the range of words when it is moved by the whole groups of a
length. -/
def Offset.Shifts (length : UInt32) (words : Postings) : Prop :=
  ∀ word ∈ words, word.toNat + length.toNat / 16 * 2 ^ 16 < 2 ^ 64

/-- No word of the list leaves the range of words when it is moved by a length and by one more
group. -/
def Offset.Fits (length : UInt32) (words : Postings) : Prop :=
  ∀ word ∈ words, word.toNat + (length.toNat / 16 + 1) * 2 ^ 16 < 2 ^ 64

/-- Whether a list leaves room for an offset and a carry can be checked. -/
instance (length : UInt32) (words : Postings) : Decidable (Offset.Fits length words) :=
  List.decidableBAll
    (fun word : Word => word.toNat + (length.toNat / 16 + 1) * 2 ^ 16 < 2 ^ 64) words

namespace Offset.Shifts

variable {length : UInt32} {words : Postings}

/-- Every word that can be shifted stays inside the 48 bits of a group. -/
theorem slot_lt (h : Shifts length words) {word : Word} (hword : word ∈ words) :
    word.slot + length.toNat / 16 < 2 ^ 48 := by
  have hlt := h word hword
  have heq := word.toNat_eq_slot
  omega

/-- What follows the first word can be shifted as well. -/
theorem tail {word : Word} (h : Shifts length (word :: words)) : Shifts length words :=
  fun other hother => h other (List.mem_cons_of_mem word hother)

/-- The first word can be shifted. -/
theorem head {word : Word} (h : Shifts length (word :: words)) :
    word.slot + length.toNat / 16 < 2 ^ 48 :=
  h.slot_lt List.mem_cons_self

/-- Both parts of a list that can be shifted can be shifted. -/
theorem append {first second : Postings} (h : Shifts length (first ++ second)) :
    Shifts length first ∧ Shifts length second :=
  ⟨fun word hword => h word (List.mem_append_left _ hword),
    fun word hword => h word (List.mem_append_right _ hword)⟩

/-- What is left of a list that can be shifted can be shifted. -/
theorem drop (h : Shifts length words) (count : Nat) : Shifts length (words.drop count) :=
  fun word hword => h word (List.mem_of_mem_drop hword)

end Offset.Shifts

namespace Offset.Fits

variable {length : UInt32} {words : Postings}

/-- Every word of a list that fits leaves room for a carry. -/
theorem slot_lt (h : Fits length words) {word : Word} (hword : word ∈ words) :
    word.slot + length.toNat / 16 + 1 < 2 ^ 48 := by
  have hlt := h word hword
  have heq := word.toNat_eq_slot
  omega

/-- A list that fits can be shifted. -/
theorem shifts (h : Fits length words) : Shifts length words := by
  intro word hword
  have hle : length.toNat / 16 * 2 ^ 16 ≤ (length.toNat / 16 + 1) * 2 ^ 16 := by omega
  exact Nat.lt_of_le_of_lt (Nat.add_le_add_left hle _) (h word hword)

/-- What follows the first word fits as well. -/
theorem tail {word : Word} (h : Fits length (word :: words)) : Fits length words :=
  fun other hother => h other (List.mem_cons_of_mem word hother)

/-- The first word fits. -/
theorem head {word : Word} (h : Fits length (word :: words)) :
    word.slot + length.toNat / 16 + 1 < 2 ^ 48 :=
  h.slot_lt List.mem_cons_self

end Offset.Fits

/-- What was matched in front comes first. -/
@[simp] theorem FirstPass.matched_prepend (matched carries : Postings) (later : FirstPass) :
    (later.prepend matched carries).matched = matched ++ later.matched := rfl

/-- What was carried over in front comes first. -/
@[simp] theorem FirstPass.carries_prepend (matched carries : Postings) (later : FirstPass) :
    (later.prepend matched carries).carries = carries ++ later.carries := rfl

/-- Nothing in front makes no difference. -/
theorem FirstPass.prepend_nil (later : FirstPass) : later.prepend [] [] = later := rfl

/-- What is put in front twice can be put in front at once. -/
theorem FirstPass.prepend_prepend (matched carries others owed : Postings) (later : FirstPass) :
    (later.prepend others owed).prepend matched carries =
      later.prepend (matched ++ others) (carries ++ owed) := by
  simp [prepend]

namespace Scalar

open Postings (Ascending Meet)

variable {length : UInt32} {lefts rights : Postings}

/-- How a merge join compares the keys of its first words. -/
theorem moved_key_eq_iff {left right : Word} (hshifts : Offset.Shifts length (left :: lefts)) :
    ((Offset.ofLength length).shiftGroups left).key = right.key ↔
      left.slot + length.toNat / 16 = right.slot := by
  rw [Word.key_eq_iff, Offset.slot_shiftGroups hshifts.head]

/-- Moved keys are ordered like the groups they stand in. -/
theorem moved_key_lt_iff {left right : Word} (hshifts : Offset.Shifts length (left :: lefts)) :
    ((Offset.ofLength length).shiftGroups left).key < right.key ↔
      left.slot + length.toNat / 16 < right.slot := by
  rw [Word.key_lt_iff, Offset.slot_shiftGroups hshifts.head]

/-- A join goes on as long as both lists have words. -/
theorem eq_nil_or_eq_nil {lefts rights : Postings}
    (h : ∀ left lefts' right rights', lefts = left :: lefts' → rights = right :: rights' → False) :
    lefts = [] ∨ rights = [] := by
  cases lefts with
  | nil => exact Or.inl rfl
  | cons left lefts =>
      cases rights with
      | nil => exact Or.inr rfl
      | cons right rights => exact False.elim (h left lefts right rights rfl rfl)

/-- The passes end with either list. -/
theorem firstPass_of_nil (offset : Offset) (h : lefts = [] ∨ rights = []) :
    firstPass offset lefts rights = {} := by
  rcases h with rfl | rfl
  · rw [firstPass.eq_def]
  · cases lefts <;> rw [firstPass.eq_def]

/-- A second pass without words on one side finds nothing. -/
theorem secondPass_of_nil (offset : Offset) (h : lefts = [] ∨ rights = []) :
    secondPass offset lefts rights = [] := by
  rcases h with rfl | rfl
  · rw [secondPass.eq_def]
  · cases lefts <;> rw [secondPass.eq_def]

/-! ## The first pass -/

/-- The first pass matches the words that meet. -/
theorem mem_matched_firstPass (hlefts : lefts.Ascending) (hrights : rights.Ascending)
    (hshifts : Offset.Shifts length lefts) {word : Word} :
    word ∈ (firstPass (.ofLength length) lefts rights).matched ↔
      Meet (length.toNat / 16) lefts rights fun left right =>
        word = (Offset.ofLength length).matchShifted
          ((Offset.ofLength length).shiftGroups left) right := by
  fun_induction firstPass (.ofLength length) lefts rights with
  | case1 left lefts right rights moved hkey ih =>
      rw [Postings.meet_cons_eq hlefts hrights ((moved_key_eq_iff hshifts).1 hkey),
        FirstPass.matched_prepend, List.singleton_append, List.mem_cons,
        ih (Postings.ascending_cons.1 hlefts).2 (Postings.ascending_cons.1 hrights).2 hshifts.tail]
  | case2 left lefts right rights moved hne hlt ih =>
      rw [Postings.meet_cons_lt hrights ((moved_key_lt_iff hshifts).1 hlt),
        FirstPass.matched_prepend, List.nil_append,
        ih (Postings.ascending_cons.1 hlefts).2 hrights hshifts.tail]
  | case3 left lefts right rights moved hne hnlt ih =>
      rw [Postings.meet_cons_gt hlefts, ih hlefts (Postings.ascending_cons.1 hrights).2 hshifts]
      have h1 := mt (moved_key_eq_iff hshifts).2 hne
      have h2 := mt (moved_key_lt_iff hshifts).2 hnlt
      omega
  | case4 lefts rights h =>
      exact iff_of_false List.not_mem_nil (Postings.not_meet (eq_nil_or_eq_nil h))

/-- The slots of the matched words are slots of right words, in their order. -/
theorem sublist_matched_firstPass :
    List.Sublist ((firstPass (.ofLength length) lefts rights).matched.map Word.slot)
      (rights.map Word.slot) := by
  fun_induction firstPass (.ofLength length) lefts rights with
  | case1 left lefts right rights moved hkey ih =>
      rw [FirstPass.matched_prepend, List.singleton_append, List.map_cons, List.map_cons,
        Offset.slot_matchShifted, Word.key_eq_iff.1 hkey]
      exact ih.cons_cons _
  | case2 left lefts right rights moved hne hlt ih =>
      rw [FirstPass.matched_prepend, List.nil_append]
      exact ih
  | case3 left lefts right rights moved hne hnlt ih => exact ih.cons _
  | case4 lefts rights h => exact List.nil_sublist _

/-- What the first pass matches ascends. -/
theorem ascending_matched_firstPass (hrights : rights.Ascending) :
    Ascending (firstPass (.ofLength length) lefts rights).matched :=
  Postings.ascending_iff_map_slot.2
    ((Postings.ascending_iff_map_slot.1 hrights).sublist sublist_matched_firstPass)

/-- The first pass owes the carries of the words that are not moved behind the last right word. -/
theorem mem_carries_firstPass (hlefts : lefts.Ascending) (hrights : rights.Ascending)
    (hshifts : Offset.Shifts length lefts) {word : Word} :
    word ∈ (firstPass (.ofLength length) lefts rights).carries ↔
      ∃ left ∈ lefts, (∃ right ∈ rights, left.slot + length.toNat / 16 ≤ right.slot) ∧
        word ∈ (Offset.ofLength length).carry ((Offset.ofLength length).shiftGroups left) := by
  fun_induction firstPass (.ofLength length) lefts rights with
  | case1 left lefts right rights moved hkey ih =>
      have hslot := (moved_key_eq_iff hshifts).1 hkey
      have hl := (Postings.ascending_cons.1 hlefts).1
      rw [FirstPass.carries_prepend, List.mem_append, ih (Postings.ascending_cons.1 hlefts).2
        (Postings.ascending_cons.1 hrights).2 hshifts.tail]
      constructor
      · rintro (h | ⟨l, hlm, ⟨r, hrm, hle⟩, h⟩)
        · exact ⟨left, List.mem_cons_self, ⟨right, List.mem_cons_self, by omega⟩, h⟩
        · exact ⟨l, List.mem_cons_of_mem _ hlm, ⟨r, List.mem_cons_of_mem _ hrm, hle⟩, h⟩
      · intro hfound
        obtain ⟨l, hlm, ⟨r, hrm, hle⟩, h⟩ := hfound
        rcases List.mem_cons.1 hlm with rfl | hlm
        · exact Or.inl h
        · rcases List.mem_cons.1 hrm with rfl | hrm
          · have hlt := hl l hlm
            omega
          · exact Or.inr ⟨l, hlm, ⟨r, hrm, hle⟩, h⟩
  | case2 left lefts right rights moved hne hlt ih =>
      -- the left word is passed, and the right word that stopped it lies behind it
      have hslot := (moved_key_lt_iff hshifts).1 hlt
      rw [FirstPass.carries_prepend, List.mem_append,
        ih (Postings.ascending_cons.1 hlefts).2 hrights hshifts.tail]
      constructor
      · rintro (h | ⟨l, hlm, hr, h⟩)
        · exact ⟨left, List.mem_cons_self, ⟨right, List.mem_cons_self, by omega⟩, h⟩
        · exact ⟨l, List.mem_cons_of_mem _ hlm, hr, h⟩
      · intro hfound
        obtain ⟨l, hlm, hr, h⟩ := hfound
        rcases List.mem_cons.1 hlm with rfl | hlm
        · exact Or.inl h
        · exact Or.inr ⟨l, hlm, hr, h⟩
  | case3 left lefts right rights moved hne hnlt ih =>
      -- the right word is passed, but no left word owes its carry to this one alone
      have hge := mt (moved_key_lt_iff hshifts).2 hnlt
      have hne := mt (moved_key_eq_iff hshifts).2 hne
      have hl := (Postings.ascending_cons.1 hlefts).1
      rw [ih hlefts (Postings.ascending_cons.1 hrights).2 hshifts]
      constructor
      · intro hfound
        obtain ⟨l, hlm, ⟨r, hrm, hle⟩, h⟩ := hfound
        exact ⟨l, hlm, ⟨r, List.mem_cons_of_mem _ hrm, hle⟩, h⟩
      · intro hfound
        obtain ⟨l, hlm, ⟨r, hrm, hle⟩, h⟩ := hfound
        rcases List.mem_cons.1 hrm with rfl | hrm
        · rcases List.mem_cons.1 hlm with rfl | hlm
          · omega
          · have hlt := hl l hlm
            omega
        · exact ⟨l, hlm, ⟨r, hrm, hle⟩, h⟩
  | case4 lefts rights h =>
      refine iff_of_false List.not_mem_nil ?_
      intro hfound
      obtain ⟨l, hlm, ⟨r, hrm, -⟩, -⟩ := hfound
      rcases eq_nil_or_eq_nil h with rfl | rfl
      · cases hlm
      · cases hrm

/-- The carry of a moved word, if it has one, lies one group further. -/
theorem sublist_carry {left : Word} {lefts : Postings}
    (hfits : Offset.Fits length (left :: lefts)) :
    List.Sublist
      (((Offset.ofLength length).carry ((Offset.ofLength length).shiftGroups left)).map Word.slot)
      [left.slot + length.toNat / 16 + 1] := by
  have hlt := hfits.head
  have hmoved : ((Offset.ofLength length).shiftGroups left).slot = left.slot + length.toNat / 16 :=
    Offset.slot_shiftGroups (by omega)
  rw [Offset.carry]
  split
  · have hslot : ((Offset.ofLength length).shiftGroups left + Word.groupStep).slot =
        left.slot + length.toNat / 16 + 1 := by
      rw [Offset.slot_add_groupStep (by omega), hmoved]
    exact hslot ▸ List.Sublist.refl _
  · exact List.nil_sublist _

/-- The carries lie one group behind the left words, in their order. -/
theorem sublist_carries_firstPass (hfits : Offset.Fits length lefts) :
    List.Sublist ((firstPass (.ofLength length) lefts rights).carries.map Word.slot)
      (lefts.map fun left => left.slot + length.toNat / 16 + 1) := by
  fun_induction firstPass (.ofLength length) lefts rights with
  | case1 left lefts right rights moved hkey ih =>
      rw [FirstPass.carries_prepend, List.map_append]
      exact (sublist_carry hfits).append (ih hfits.tail)
  | case2 left lefts right rights moved hne hlt ih =>
      rw [FirstPass.carries_prepend, List.map_append]
      exact (sublist_carry hfits).append (ih hfits.tail)
  | case3 left lefts right rights moved hne hnlt ih => exact ih hfits
  | case4 lefts rights h => exact List.nil_sublist _

/-- The carries of a list that fits ascend. -/
theorem ascending_carries_firstPass (hlefts : lefts.Ascending) (hfits : Offset.Fits length lefts) :
    Ascending (firstPass (.ofLength length) lefts rights).carries := by
  have hmoved : (lefts.map fun left => left.slot + length.toNat / 16 + 1).Pairwise (· < ·) := by
    refine List.pairwise_map.2 (hlefts.imp fun hlt => ?_)
    have hslot := Word.key_lt_iff.1 hlt
    omega
  exact Postings.ascending_iff_map_slot.2 (hmoved.sublist (sublist_carries_firstPass hfits))

/-! ## The second pass -/

/-- The second pass matches the carries that meet a right word where they are. -/
theorem mem_secondPass (hlefts : lefts.Ascending) (hrights : rights.Ascending) {word : Word} :
    word ∈ secondPass (.ofLength length) lefts rights ↔
      Meet 0 lefts rights fun left right =>
        word = (Offset.ofLength length).matchCarried left right := by
  fun_induction secondPass (.ofLength length) lefts rights with
  | case1 left lefts right rights hkey ih =>
      rw [Postings.meet_cons_eq hlefts hrights (Word.key_eq_iff.1 hkey), List.mem_cons,
        ih (Postings.ascending_cons.1 hlefts).2 (Postings.ascending_cons.1 hrights).2]
  | case2 left lefts right rights hne hlt ih =>
      rw [Postings.meet_cons_lt hrights (Word.key_lt_iff.1 hlt),
        ih (Postings.ascending_cons.1 hlefts).2 hrights]
  | case3 left lefts right rights hne hnlt ih =>
      have h1 := mt Word.key_eq_iff.2 hne
      have h2 := mt Word.key_lt_iff.2 hnlt
      rw [Postings.meet_cons_gt hlefts (by omega),
        ih hlefts (Postings.ascending_cons.1 hrights).2]
  | case4 lefts rights h =>
      exact iff_of_false List.not_mem_nil (Postings.not_meet (eq_nil_or_eq_nil h))

/-- The second pass stands in groups of right words, in their order. -/
theorem sublist_secondPass :
    List.Sublist ((secondPass (.ofLength length) lefts rights).map Word.slot)
      (rights.map Word.slot) := by
  fun_induction secondPass (.ofLength length) lefts rights with
  | case1 left lefts right rights hkey ih =>
      rw [List.map_cons, List.map_cons, Offset.slot_matchCarried, Word.key_eq_iff.1 hkey]
      exact ih.cons_cons _
  | case2 left lefts right rights hne hlt ih => exact ih
  | case3 left lefts right rights hne hnlt ih => exact ih.cons _
  | case4 lefts rights h => exact List.nil_sublist _

/-- What the second pass finds ascends. -/
theorem ascending_secondPass (hrights : rights.Ascending) :
    Ascending (secondPass (.ofLength length) lefts rights) :=
  Postings.ascending_iff_map_slot.2
    ((Postings.ascending_iff_map_slot.1 hrights).sublist sublist_secondPass)

end Scalar
end Concordance
