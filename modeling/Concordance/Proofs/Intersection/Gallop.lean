import Concordance.Intersection.Gallop
import Concordance.Proofs.Intersection.Scalar
import Concordance.Proofs.Posting.Boundary

/-!
# Galloping finds what a merge join finds

A gallop stops at the first word that is not below its target (`gallop_eq`). The words it passes
are those that a merge join leaves behind one by one, so both passes yield the same words in the
same order. Keys need not ascend strictly for this.
-/

namespace Concordance

namespace Postings

/-- The keys of the words do not descend. -/
def Sorted (words : Postings) : Prop :=
  words.Pairwise fun first second => first.key ≤ second.key

/-- Strictly ascending lists are sorted. -/
theorem Ascending.sorted {words : Postings} (h : words.Ascending) : words.Sorted :=
  h.imp fun hlt => Word.key_le_iff.2 (Nat.le_of_lt (Word.key_lt_iff.1 hlt))

/-- What is left of a sorted list is sorted. -/
theorem Sorted.drop {words : Postings} (h : words.Sorted) (count : Nat) :
    Sorted (words.drop count) :=
  List.Pairwise.sublist (List.drop_sublist count words) h

/-- The words behind the first one of a sorted list are sorted. -/
theorem Sorted.tail {word : Word} {words : Postings} (h : Sorted (word :: words)) : words.Sorted :=
  (List.pairwise_cons.1 h).2

end Postings

namespace Gallop

open Postings (Leading Sorted)

/-! ## The boundary of a gallop -/

/-- The first word is below, and behind it those that are counted in the rest. -/
theorem one_add_countBelow_drop {below : Word → Bool} {words : List Word}
    (h : Leading below words) (hpos : 0 < words.length) (hfirst : below words[0] = true) :
    1 + Postings.countBelow below (words.drop 1) = words.countP below := by
  have htake : ∀ word ∈ words.take 1, below word = true := by
    intro word hword
    rw [List.take_one, List.head?_eq_getElem?, List.getElem?_eq_getElem hpos] at hword
    rwa [List.mem_singleton.1 hword]
  rw [Postings.countBelow_eq_countP (h.drop 1), Postings.countP_eq_add_countP_drop hpos htake]

/-- A leap passes exactly the words that are below, of which the first must be one. -/
theorem leap_eq_countP {below : Word → Bool} {power : Nat} {words : List Word}
    (h : Leading below words) (hpos : 0 < words.length) (hfirst : below words[0] = true) :
    leap below power words = words.countP below := by
  fun_induction leap below power words with
  | case1 power words hstride hbelow ih =>
      have hdrop : 0 < (words.drop (1 <<< power)).length := by
        rw [List.length_drop]
        omega
      rw [ih (h.drop _) hdrop (by rwa [List.getElem_drop]),
        ← Postings.countP_eq_add_countP_drop (Nat.le_of_lt hstride) (h.of_getElem hstride hbelow)]
  | case2 power words hstride hbelow =>
      -- the words that are below end within this leap, and its first word is one of them
      have hpow : 0 < 1 <<< power := Nat.one_shiftLeft power ▸ Nat.two_pow_pos power
      have htake : (words.take (1 <<< power)).drop 1 = (words.drop 1).take (1 <<< power - 1) := by
        rw [List.drop_take]
      have hlength : 0 < (words.take (1 <<< power)).length := by
        rw [List.length_take]
        omega
      rw [← htake, one_add_countBelow_drop (h.take _) hlength (by rwa [List.getElem_take]),
        ← Postings.countP_eq_countP_take (h.not_of_getElem hstride hbelow)]
  | case3 power words hend => exact one_add_countBelow_drop h hpos hfirst

/-- Galloping from a word that is below the target passes the words that are below it. -/
theorem gallop_eq {words : List Word} {start : Nat} {shift target : Word}
    (h : Leading (fun word => word.key + shift < target) (words.drop start))
    (hstart : start < words.length) (hbelow : words[start].key + shift < target) :
    gallop words start shift target =
      start + (words.drop start).countP fun word => word.key + shift < target := by
  have hpos : 0 < (words.drop start).length := by
    rw [List.length_drop]
    omega
  rw [gallop, leap_eq_countP h hpos (by rw [List.getElem_drop]; exact decide_eq_true hbelow)]

/-! ## The strides of a gallop -/

/-- Where the strides of a gallop end: the place of the last word they found below, and the end of
the words that are left to be searched behind it. -/
def lastStride (below : Word → Bool) (words : List Word) (low power : Nat) : Nat × Nat :=
  if hstride : low + 1 <<< power < words.length then
    if below words[low + 1 <<< power] then
      lastStride below words (low + 1 <<< power) (power + 1)
    else (low, low + 1 <<< power)
  else (low, words.length)
termination_by words.length - low
decreasing_by
  have : 0 < 1 <<< power := Nat.one_shiftLeft power ▸ Nat.two_pow_pos power
  omega

/-- The words behind the last stride are a slice of the list, and searching them finds the end of
the leap. -/
theorem lastStride_spec {below : Word → Bool} {words : List Word} {low power : Nat}
    (hlow : low < words.length) :
    (lastStride below words low power).1 < (lastStride below words low power).2 ∧
      (lastStride below words low power).2 ≤ words.length ∧
      low + leap below power (words.drop low) =
        (lastStride below words low power).1 + 1 + Postings.countBelow below
          ((words.take (lastStride below words low power).2).drop
            ((lastStride below words low power).1 + 1)) := by
  fun_induction lastStride below words low power with
  | case1 low power hstride hbelow ih =>
      have hinside : 1 <<< power < (words.drop low).length := by
        rw [List.length_drop]
        omega
      obtain ⟨hlt, hle, heq⟩ := ih hstride
      refine ⟨hlt, hle, ?_⟩
      rw [← heq, leap, dif_pos hinside, if_pos (by rwa [List.getElem_drop]), List.drop_drop,
        Nat.add_assoc]
  | case2 low power hstride hbelow =>
      have hpow : 0 < 1 <<< power := Nat.one_shiftLeft power ▸ Nat.two_pow_pos power
      have hinside : 1 <<< power < (words.drop low).length := by
        rw [List.length_drop]
        omega
      refine ⟨by omega, Nat.le_of_lt hstride, ?_⟩
      rw [leap, dif_pos hinside, if_neg (by rwa [List.getElem_drop]), List.drop_drop,
        List.drop_take, Nat.sub_add_eq, Nat.add_sub_cancel_left, Nat.add_assoc]
  | case3 low power hend =>
      have houtside : ¬ 1 <<< power < (words.drop low).length := by
        rw [List.length_drop]
        omega
      refine ⟨hlow, Nat.le_refl _, ?_⟩
      rw [leap, dif_neg houtside, List.drop_drop, List.take_length, Nat.add_assoc]

/-- Binary search finds no more words than there are. -/
theorem countBelow_le (below : Word → Bool) (words : Postings) :
    Postings.countBelow below words ≤ words.length := by
  fun_induction Postings.countBelow below words with
  | case1 words hseveral hmiddle hbelow ih =>
      rw [List.length_drop] at ih
      omega
  | case2 words hseveral hmiddle hbelow ih =>
      rw [List.length_take] at ih
      omega
  | case3 words hshort => exact List.countP_le_length

/-- A gallop that starts inside a list ends inside it or right behind it. -/
theorem gallop_le_length {words : List Word} {start : Nat} (hstart : start < words.length)
    (shift target : Word) : gallop words start shift target ≤ words.length := by
  obtain ⟨hlt, hle, heq⟩ := @lastStride_spec
    (fun word => word.key + shift < target) words start 0 hstart
  have hcount := countBelow_le (fun word => word.key + shift < target)
    ((words.take (lastStride (fun word => word.key + shift < target) words start 0).2).drop
      ((lastStride (fun word => word.key + shift < target) words start 0).1 + 1))
  rw [List.length_drop, List.length_take] at hcount
  rw [gallop, heq]
  omega

/-! ## Keys moved forward -/

/-- Comparing a key that a shift does not take past the last word compares numbers. -/
theorem key_add_lt_iff {word shift target : Word}
    (h : word.key.toNat + shift.toNat < 2 ^ 64) :
    word.key + shift < target ↔ word.key.toNat + shift.toNat < target.toNat := by
  rw [UInt64.lt_iff_toNat_lt, UInt64.toNat_add, Nat.mod_eq_of_lt h]

/-- In a sorted list, the words whose moved keys are below some target come first. -/
theorem leading_key_add {words : Postings} {shift : Word} (hwords : words.Sorted)
    (hroom : ∀ word ∈ words, word.key.toNat + shift.toNat < 2 ^ 64) (target : Word) :
    Leading (fun word => word.key + shift < target) words := by
  refine List.Pairwise.imp_of_mem (fun {first second} hfirst hsecond hle hbelow => ?_) hwords
  have hkeys := UInt64.le_iff_toNat_le.1 hle
  rw [decide_eq_true_eq, key_add_lt_iff (hroom second hsecond)] at hbelow
  rw [decide_eq_true_eq, key_add_lt_iff (hroom first hfirst)]
  omega

variable {length : UInt32} {lefts rights : Postings}

/-- The left words whose moved keys are below a target come first. -/
theorem leading_key_add_groups (hlefts : lefts.Sorted) (hshifts : Offset.Shifts length lefts)
    (target : Word) :
    Leading (fun word => word.key + (Offset.ofLength length).groups < target.key) lefts := by
  refine leading_key_add hlefts (fun word hword => ?_) target.key
  have hroom := hshifts.slot_lt hword
  rw [Word.toNat_key, Offset.toNat_groups]
  omega

/-- The right words whose keys are below a target come first. -/
theorem leading_key (hwords : rights.Sorted) (target : Word) :
    Leading (fun word => word.key + 0 < target.key) rights := by
  refine leading_key_add hwords (fun word _ => ?_) target.key
  exact UInt64.toNat_lt word.key

/-! ## What a merge join does with words below the other list -/

/-- A merge join passes left words below the right list and keeps their carries. -/
theorem firstPass_drop_left {offset : Offset} {right : Word} {count : Nat}
    (h : ∀ word ∈ lefts.take count, (offset.shiftGroups word).key < right.key) :
    Scalar.firstPass offset lefts (right :: rights) =
      (Scalar.firstPass offset (lefts.drop count) (right :: rights)).prepend []
        ((lefts.take count).flatMap fun word => offset.carry (offset.shiftGroups word)) := by
  induction count generalizing lefts with
  | zero => exact (FirstPass.prepend_nil _).symm
  | succ count ih =>
      cases lefts with
      | nil => exact (FirstPass.prepend_nil _).symm
      | cons left lefts =>
          have hlt := h left List.mem_cons_self
          rw [Scalar.firstPass, if_neg (UInt64.ne_of_lt hlt), if_pos hlt,
            ih fun word hword => h word (List.mem_cons_of_mem _ hword),
            FirstPass.prepend_prepend]
          rfl

/-- A merge join passes right words below the left list. -/
theorem firstPass_drop_right {offset : Offset} {left : Word} {count : Nat}
    (h : ∀ word ∈ rights.take count, word.key < (offset.shiftGroups left).key) :
    Scalar.firstPass offset (left :: lefts) rights =
      Scalar.firstPass offset (left :: lefts) (rights.drop count) := by
  induction count generalizing rights with
  | zero => rfl
  | succ count ih =>
      cases rights with
      | nil => rfl
      | cons right rights =>
          have hlt := h right List.mem_cons_self
          rw [Scalar.firstPass, if_neg (UInt64.ne_of_lt hlt).symm, if_neg (UInt64.lt_asymm hlt),
            ih fun word hword => h word (List.mem_cons_of_mem _ hword)]
          rfl

/-- Left words below the first right word can be dropped in a second pass. -/
theorem secondPass_drop_left {offset : Offset} {right : Word} {count : Nat}
    (h : ∀ word ∈ lefts.take count, word.key < right.key) :
    Scalar.secondPass offset lefts (right :: rights) =
      Scalar.secondPass offset (lefts.drop count) (right :: rights) := by
  induction count generalizing lefts with
  | zero => rfl
  | succ count ih =>
      cases lefts with
      | nil => rfl
      | cons left lefts =>
          have hlt := h left List.mem_cons_self
          rw [Scalar.secondPass, if_neg (UInt64.ne_of_lt hlt), if_pos hlt,
            ih fun word hword => h word (List.mem_cons_of_mem _ hword)]
          rfl

/-- Right words below the first left word can be dropped in a second pass. -/
theorem secondPass_drop_right {offset : Offset} {left : Word} {count : Nat}
    (h : ∀ word ∈ rights.take count, word.key < left.key) :
    Scalar.secondPass offset (left :: lefts) rights =
      Scalar.secondPass offset (left :: lefts) (rights.drop count) := by
  induction count generalizing rights with
  | zero => rfl
  | succ count ih =>
      cases rights with
      | nil => rfl
      | cons right rights =>
          have hlt := h right List.mem_cons_self
          rw [Scalar.secondPass, if_neg (UInt64.ne_of_lt hlt).symm, if_neg (UInt64.lt_asymm hlt),
            ih fun word hword => h word (List.mem_cons_of_mem _ hword)]
          rfl

/-! ## The passes -/

/-- The words that a gallop from the front passes are below its target. -/
theorem below_of_mem_take_gallop {word first : Word} {words : List Word} {shift target : Word}
    (h : Leading (fun word => word.key + shift < target) (first :: words))
    (hfirst : first.key + shift < target)
    (hword : word ∈ (first :: words).take (gallop (first :: words) 0 shift target)) :
    word.key + shift < target := by
  have hstart : Leading (fun word => word.key + shift < target) ((first :: words).drop 0) := h
  rw [gallop_eq hstart (Nat.succ_pos _) hfirst, List.drop_zero, Nat.zero_add] at hword
  exact of_decide_eq_true (h.take_countP word hword)

/-- The galloping first pass yields the words of the merge join. -/
theorem firstPass_eq (hlefts : lefts.Sorted) (hrights : rights.Sorted)
    (hshifts : Offset.Shifts length lefts) :
    firstPass (.ofLength length) lefts rights =
      Scalar.firstPass (.ofLength length) lefts rights := by
  fun_induction firstPass (.ofLength length) lefts rights with
  | case1 left lefts right rights moved hkey ih =>
      rw [Scalar.firstPass, if_pos hkey, ih hlefts.tail hrights.tail hshifts.tail]
  | case2 left lefts right rights moved hne hlt skipped ih =>
      rw [ih (hlefts.drop _) hrights (hshifts.drop _), ← firstPass_drop_left]
      intro word hword
      -- what a gallop skips lies below its target, so the merge join would have passed it too
      have hfirst := (Scalar.moved_key_lt_iff hshifts).1 hlt
      have hbelow := below_of_mem_take_gallop (leading_key_add_groups hlefts hshifts right)
        ((Offset.key_add_groups_lt_iff hshifts.head).2 hfirst) hword
      have hroom := hshifts.slot_lt (List.mem_of_mem_take hword)
      rw [Offset.key_add_groups_lt_iff hroom] at hbelow
      rw [Word.key_lt_iff, Offset.slot_shiftGroups hroom]
      exact hbelow
  | case3 left lefts right rights moved hne hnlt ih =>
      have hgt : right.key < moved.key :=
        UInt64.lt_of_le_of_ne (UInt64.not_lt.1 hnlt) (Ne.symm hne)
      rw [ih hlefts (hrights.drop _) hshifts, ← firstPass_drop_right]
      intro word hword
      have hbelow := below_of_mem_take_gallop (leading_key hrights moved)
        (by rwa [UInt64.add_zero]) hword
      rwa [UInt64.add_zero] at hbelow
  | case4 lefts rights h => exact (Scalar.firstPass_of_nil _ (Scalar.eq_nil_or_eq_nil h)).symm

/-- The galloping second pass yields the words of the merge join. -/
theorem secondPass_eq {offset : Offset} (hlefts : lefts.Sorted) (hrights : rights.Sorted) :
    secondPass offset lefts rights = Scalar.secondPass offset lefts rights := by
  fun_induction secondPass offset lefts rights with
  | case1 left lefts right rights hkey ih =>
      rw [Scalar.secondPass, if_pos hkey, ih hlefts.tail hrights.tail]
  | case2 left lefts right rights hne hlt ih =>
      rw [ih (hlefts.drop _) hrights, ← secondPass_drop_left]
      intro word hword
      have hbelow := below_of_mem_take_gallop (leading_key hlefts right)
        (by rwa [UInt64.add_zero]) hword
      rwa [UInt64.add_zero] at hbelow
  | case3 left lefts right rights hne hnlt ih =>
      have hgt : right.key < left.key :=
        UInt64.lt_of_le_of_ne (UInt64.not_lt.1 hnlt) (Ne.symm hne)
      rw [ih hlefts (hrights.drop _), ← secondPass_drop_right]
      intro word hword
      have hbelow := below_of_mem_take_gallop (leading_key hrights left)
        (by rwa [UInt64.add_zero]) hword
      rwa [UInt64.add_zero] at hbelow
  | case4 lefts rights h => exact (Scalar.secondPass_of_nil _ (Scalar.eq_nil_or_eq_nil h)).symm

/-- **Galloping is a merge join.** For lists whose keys do not descend, both galloping passes yield
the words of the merge join in their order. Every gallop moves forward and stays inside its list,
and so do the words behind its last stride, among which a binary search finds its end. -/
theorem gallop_eq_scalar (hlefts : lefts.Sorted) (hrights : rights.Sorted)
    (hshifts : Offset.Shifts length lefts) :
    firstPass (.ofLength length) lefts rights = Scalar.firstPass (.ofLength length) lefts rights ∧
      secondPass (.ofLength length) lefts rights =
        Scalar.secondPass (.ofLength length) lefts rights ∧
      ∀ (words : List Word) (start : Nat) (shift target : Word), start < words.length →
        start < gallop words start shift target ∧
          gallop words start shift target ≤ words.length ∧
          ∃ low high,
            lastStride (fun word => word.key + shift < target) words start 0 = (low, high) ∧
              low < high ∧ high ≤ words.length ∧
              gallop words start shift target = low + 1 + Postings.countBelow
                (fun word => word.key + shift < target) ((words.take high).drop (low + 1)) := by
  refine ⟨firstPass_eq hlefts hrights hshifts, secondPass_eq hlefts hrights, ?_⟩
  intro words start shift target hstart
  obtain ⟨hlt, hle, heq⟩ := @lastStride_spec
    (fun word => word.key + shift < target) words start 0 hstart
  exact ⟨lt_gallop words start shift target, gallop_le_length hstart shift target, _, _, rfl, hlt,
    hle, heq⟩

/-- Left words with a common key that are skipped keep their carries. -/
theorem gallop_eq_scalar_repeated :
    firstPass (.ofLength 17)
        [Word.pack 0 0 0x8000, Word.pack 0 0 0x8001, Word.pack 0 4 0x0001] [Word.pack 0 5 0x0002] =
      ⟨[Word.pack 0 5 0x0002], [Word.pack 0 2 0x8000, Word.pack 0 2 0x8001]⟩ := by
  have h := gallop_eq_scalar
    (show Sorted [Word.pack 0 0 0x8000, Word.pack 0 0 0x8001, Word.pack 0 4 0x0001] by
      unfold Sorted
      decide)
    (List.pairwise_singleton _ (Word.pack 0 5 0x0002))
    (show Offset.Shifts 17 [Word.pack 0 0 0x8000, Word.pack 0 0 0x8001, Word.pack 0 4 0x0001] by
      simp only [Offset.Shifts, List.forall_mem_cons, List.not_mem_nil, false_implies, implies_true,
        and_true]
      decide)
  rw [h.1]
  simp only [Scalar.firstPass]
  decide

end Gallop
end Concordance
