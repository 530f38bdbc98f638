import Concordance.Failure
import Concordance.Proofs.Intersection.Gallop
import Mathlib.Order.Bounds.Basic

/-!
# Galloping finds a boundary

A gallop looks for the first word behind its start whose key, moved forward, is not below a target.
`Search.round` is one round of it as a loop over indices: a stride that ends at a word below the
target is followed by one twice as wide, and any other by a search of the slice behind the last word
found below, which is refused if it does not lie inside the list. The main statement,
`gallop_isLeast`, says that the loop ends without being refused, and that it finds the boundary.
-/

namespace Concordance
namespace Gallop

open Postings (Leading Sorted)

/-! ## The search as a loop -/

/-- The words from one index up to another. Indices that are out of order or past the end are
refused. -/
def slice (words : List Word) (first last : Nat) : Except Failure (List Word) :=
  if first ≤ last ∧ last ≤ words.length then .ok ((words.take last).drop first)
  else .error .indexOutOfRange

/-- The state of a search. While it strides, the last word found below is the one at `low`, and the
next stride leads from there over this width to `high`. -/
inductive Search where
  | striding (low width high : Nat)
  | found (index : Nat)

namespace Search

/-- The first stride leads to the next word. -/
def ofStart (start : Nat) : Search :=
  striding start 1 (start + 1)

/-- One round of a search: the next stride, or the search of the words behind the last one found
below if the stride leaves the list or ends at a word that is not below. -/
def round (below : Word → Bool) (words : List Word) : Search → Except Failure Search
  | striding low width high =>
      if words[high]?.any below then .ok (striding high (width * 2) (high + width * 2))
      else do
        let rest ← slice words (low + 1) (min high words.length)
        return found (low + 1 + Postings.countBelow below rest)
  | found index => .ok (found index)

/-- A search after this many rounds. -/
def after (below : Word → Bool) (words : List Word) : Nat → Search → Except Failure Search
  | 0, search => .ok search
  | rounds + 1, search => search.round below words >>= after below words rounds

/-- The round after this many strides finds the index. No stride leads as far as twice the length of
the list, so the indices never wrap around where twice the length does not. -/
structure Finds (below : Word → Bool) (words : List Word) (search : Search)
    (strides index : Nat) : Prop where
  goes_on : ∀ rounds ≤ strides, ∃ low width high,
    search.after below words rounds = .ok (striding low width high) ∧ high < 2 * words.length
  ends : search.after below words (strides + 1) = .ok (found index)

variable {below : Word → Bool} {words : List Word} {low width high last power strides : Nat}
  {index : Nat} {later : Search}

/-- A search that finds its index in the next round takes no further stride. -/
theorem Finds.of_found (hhigh : high < 2 * words.length)
    (hround : round below words (striding low width high) = .ok (found index)) :
    Finds below words (striding low width high) 0 index := by
  refine ⟨fun rounds hrounds => ?_, ?_⟩
  · rw [Nat.le_zero.1 hrounds]
    exact ⟨low, width, high, rfl, hhigh⟩
  · rw [after, hround]
    rfl

/-- One more stride in front of a search finds what that search finds. -/
theorem Finds.of_stride (hhigh : high < 2 * words.length)
    (hround : round below words (striding low width high) = .ok later)
    (h : Finds below words later strides index) :
    Finds below words (striding low width high) (strides + 1) index := by
  refine ⟨fun rounds hrounds => ?_, ?_⟩
  · cases rounds with
    | zero => exact ⟨low, width, high, rfl, hhigh⟩
    | succ rounds =>
        rw [after, hround]
        exact h.goes_on rounds (Nat.le_of_succ_le_succ hrounds)
  · rw [after, hround]
    exact h.ends

/-! ## One round -/

/-- A stride that ends at a word below is followed by one twice as wide. -/
theorem round_of_below (hhigh : high < words.length) (hbelow : below words[high] = true) :
    round below words (striding low width high) =
      .ok (striding high (width * 2) (high + width * 2)) := by
  rw [round, List.getElem?_eq_getElem hhigh, Option.any_some, if_pos hbelow]

/-- Any other stride ends the search. The slice that is left to be searched lies inside the list. -/
theorem round_of_not_below (hlow : low < words.length) (hlt : low < high)
    (hend : ¬ words[high]?.any below = true) (hlast : min high words.length = last) :
    round below words (striding low width high) =
      .ok (found (low + 1 + Postings.countBelow below ((words.take last).drop (low + 1)))) := by
  have hinside : low + 1 ≤ last ∧ last ≤ words.length := by omega
  rw [round, if_neg hend, hlast, slice, if_pos hinside]
  rfl

/-! ## The whole search -/

/-- A search whose next stride is at most as wide as the way up to it ends with the search of the
words behind its last stride. The strides double, so their number is logarithmic in what is left of
the list. -/
theorem exists_finds (hlow : low < words.length) (hwidth : 2 ^ power ≤ low + 1) :
    ∃ strides, low + 2 ^ (power + strides) < words.length + 2 ^ power ∧
      Finds below words (striding low (2 ^ power) (low + 2 ^ power)) strides
        ((lastStride below words low power).1 + 1 + Postings.countBelow below
          ((words.take (lastStride below words low power).2).drop
            ((lastStride below words low power).1 + 1))) := by
  fun_induction lastStride below words low power with
  | case1 low power hstride hbelow ih =>
      simp only [Nat.one_shiftLeft, Nat.pow_succ] at hstride hbelow ih ⊢
      -- the next stride starts further on by the width of this one, by which it is wider
      obtain ⟨strides, hfew, hfinds⟩ := ih hstride (by omega)
      refine ⟨strides + 1, ?_, Finds.of_stride (by omega) (round_of_below hstride hbelow) hfinds⟩
      rw [show power + (strides + 1) = power + 1 + strides by omega]
      omega
  | case2 low power hstride hbelow =>
      simp only [Nat.one_shiftLeft] at hstride hbelow ⊢
      have hlt : low < low + 2 ^ power := Nat.lt_add_of_pos_right (Nat.two_pow_pos power)
      have hend : ¬ words[low + 2 ^ power]?.any below = true := by
        rwa [List.getElem?_eq_getElem hstride, Option.any_some]
      have hlast := Nat.min_eq_left (Nat.le_of_lt hstride)
      refine ⟨0, ?_, Finds.of_found (by omega) (round_of_not_below hlow hlt hend hlast)⟩
      rw [Nat.add_zero]
      omega
  | case3 low power houtside =>
      simp only [Nat.one_shiftLeft] at houtside ⊢
      have hlt : low < low + 2 ^ power := Nat.lt_add_of_pos_right (Nat.two_pow_pos power)
      have hend : ¬ words[low + 2 ^ power]?.any below = true := by
        rw [List.getElem?_eq_none (Nat.not_lt.1 houtside)]
        exact Bool.false_ne_true
      have hlast := Nat.min_eq_right (Nat.not_lt.1 houtside)
      refine ⟨0, ?_, Finds.of_found (by omega) (round_of_not_below hlow hlt hend hlast)⟩
      rw [Nat.add_zero]
      omega

end Search

/-! ## The boundary -/

/-- If the words below the target come first, a gallop passes exactly the words below it. -/
theorem lt_gallop_iff {words : List Word} {start index : Nat} {shift target : Word}
    (h : Leading (fun word => word.key + shift < target) words) (hstart : start < words.length)
    (hbelow : words[start].key + shift < target) (hle : start ≤ index)
    (hindex : index < words.length) :
    index < gallop words start shift target ↔ words[index].key + shift < target := by
  have hrest : index - start < (words.drop start).length := by
    rw [List.length_drop]
    omega
  have hiff := (h.drop start).getElem_iff hrest
  simp only [List.getElem_drop, Nat.add_sub_cancel' hle, decide_eq_true_eq] at hiff
  rw [gallop_eq (h.drop start) hstart hbelow, hiff]
  omega

/-- The loop of a gallop that starts inside its list ends with the index that the gallop yields. -/
theorem exists_finds_gallop {words : List Word} {start : Nat} (hstart : start < words.length)
    (shift target : Word) :
    ∃ strides, 2 ^ strides ≤ words.length - start ∧
      (Search.ofStart start).Finds (fun word => word.key + shift < target) words strides
        (gallop words start shift target) := by
  obtain ⟨strides, hfew, hfinds⟩ := @Search.exists_finds
    (fun word => word.key + shift < target) words start 0 hstart (by omega)
  refine ⟨strides, ?_, ?_⟩
  · rw [Nat.zero_add] at hfew
    omega
  · rw [gallop, (lastStride_spec hstart).2.2]
    exact hfinds

/-- **Galloping finds the boundary.** In a list whose keys do not descend and have room for the
shift, a gallop from a word whose moved key is below the target yields the least index behind it
whose moved key is not, or the length of the list if there is none. The loop over indices finds it
after a number of strides that is logarithmic in the length of what is searched, and never takes a
slice that is not inside the list. -/
theorem gallop_isLeast {words : List Word} {start : Nat} {shift target : Word}
    (hwords : Sorted words) (hstart : start < words.length)
    (hroom : ∀ word ∈ words, word.key.toNat + shift.toNat < 2 ^ 64)
    (htarget : words[start].key.toNat + shift.toNat < target.toNat) :
    IsLeast {index | start < index ∧ (index = words.length ∨ ∃ hinside : index < words.length,
        target.toNat ≤ words[index].key.toNat + shift.toNat)}
        (gallop words start shift target) ∧
      ∃ strides, 2 ^ strides ≤ words.length - start ∧
        (Search.ofStart start).Finds (fun word => word.key + shift < target) words strides
          (gallop words start shift target) := by
  have hbelow : words[start].key + shift < target :=
    (key_add_lt_iff (hroom _ (List.getElem_mem hstart))).2 htarget
  have hpassed : ∀ index (hinside : index < words.length), start < index →
      (index < gallop words start shift target ↔
        words[index].key.toNat + shift.toNat < target.toNat) := by
    intro index hinside hafter
    rw [lt_gallop_iff (leading_key_add hwords hroom target) hstart hbelow (Nat.le_of_lt hafter)
      hinside, key_add_lt_iff (hroom _ (List.getElem_mem hinside))]
  have hafter := lt_gallop words start shift target
  have hlength := gallop_le_length hstart shift target
  refine ⟨⟨⟨hafter, ?_⟩, ?_⟩, exists_finds_gallop hstart shift target⟩
  · rcases Nat.lt_or_eq_of_le hlength with hinside | hend
    · refine Or.inr ⟨hinside, Nat.not_lt.1 fun hlt => ?_⟩
      exact Nat.lt_irrefl _ ((hpassed _ hinside hafter).2 hlt)
    · exact Or.inl hend
  · rintro index ⟨hlater, rfl | ⟨hinside, hreached⟩⟩
    · exact hlength
    · refine Nat.not_lt.1 fun hlt => ?_
      have hpass := (hpassed index hinside hlater).1 hlt
      omega

/-- Seven words in every other group, two of them with the key of the word before. -/
def everyOtherGroup : List Word :=
  [Word.pack 0 0 1, Word.pack 0 2 1, Word.pack 0 2 2, Word.pack 0 4 1, Word.pack 0 6 1,
    Word.pack 0 8 1, Word.pack 0 8 2]

/-- The last stride leads past the end of the list, and the boundary is the first word of the slice
that is left. -/
theorem gallop_isLeast_past_end :
    Sorted everyOtherGroup ∧
      (∀ word ∈ everyOtherGroup, word.key.toNat + Word.groupStep.toNat < 2 ^ 64) ∧
      gallop everyOtherGroup 1 Word.groupStep (Word.pack 0 9 0) = 5 ∧
      ∃ strides, 2 ^ strides ≤ 6 ∧ (Search.ofStart 1).Finds
        (fun word => word.key + Word.groupStep < Word.pack 0 9 0) everyOtherGroup strides 5 := by
  have hwords : Sorted everyOtherGroup := by
    unfold Sorted
    decide
  have hroom : ∀ word ∈ everyOtherGroup, word.key.toNat + Word.groupStep.toNat < 2 ^ 64 := by
    simp only [everyOtherGroup, List.forall_mem_cons, List.not_mem_nil, false_implies, implies_true]
    decide
  obtain ⟨hleast, hfinds⟩ := @gallop_isLeast everyOtherGroup 1 Word.groupStep (Word.pack 0 9 0)
    hwords (by decide) hroom (by decide)
  have hfive : gallop everyOtherGroup 1 Word.groupStep (Word.pack 0 9 0) = 5 := by
    refine hleast.unique ⟨⟨by decide, Or.inr ⟨by decide, by decide⟩⟩, ?_⟩
    rintro index ⟨hafter, rfl | ⟨hinside, hreached⟩⟩
    · decide
    · refine Nat.not_lt.1 fun hlt => ?_
      obtain rfl | rfl | rfl : index = 2 ∨ index = 3 ∨ index = 4 := by omega
      all_goals exact absurd hreached (by decide +revert)
  rw [hfive] at hfinds
  exact ⟨hwords, hroom, hfive, hfinds⟩

end Gallop
end Concordance
