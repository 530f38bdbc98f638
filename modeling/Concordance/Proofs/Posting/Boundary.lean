import Concordance.Posting.Boundary

/-!
# Counting the words before a boundary

If the words below a limit come first, halving counts exactly the words below it, and taking and
dropping as many words separates them from the others.
-/

namespace Concordance
namespace Postings

/-- The words that are below come before all others. -/
def Leading (below : Word → Bool) (words : Postings) : Prop :=
  words.Pairwise fun first second => below second = true → below first = true

namespace Leading

variable {below : Word → Bool} {words : Postings}

/-- If the words that are below come first, they still do when some words in front are left out. -/
theorem drop (h : Leading below words) (count : Nat) : Leading below (words.drop count) :=
  List.Pairwise.sublist (List.drop_sublist count words) h

/-- If the words that are below come first, they still do when some words at the end are left out.
-/
theorem take (h : Leading below words) (count : Nat) : Leading below (words.take count) :=
  List.Pairwise.sublist (List.take_sublist count words) h

/-- All words before one that is below are below. -/
theorem of_getElem (h : Leading below words) {i : Nat} (hi : i < words.length)
    (hbelow : below words[i] = true) : ∀ word ∈ words.take i, below word = true := by
  intro word hword
  obtain ⟨j, hj, rfl⟩ := List.getElem_of_mem hword
  rw [List.length_take] at hj
  rw [List.getElem_take]
  exact List.pairwise_iff_getElem.1 h j i (by omega) hi (by omega) hbelow

/-- No word from one on that is not below is below. -/
theorem not_of_getElem (h : Leading below words) {i : Nat} (hi : i < words.length)
    (hbelow : ¬ below words[i] = true) : ∀ word ∈ words.drop i, ¬ below word = true := by
  intro word hword hword'
  obtain ⟨j, hj, rfl⟩ := List.getElem_of_mem hword
  rw [List.length_drop] at hj
  rw [List.getElem_drop] at hword'
  cases j with
  | zero => exact hbelow hword'
  | succ j =>
      exact hbelow
        (List.pairwise_iff_getElem.1 h i (i + (j + 1)) hi (by omega) (by omega) hword')

/-- Behind the words that are below there is no other one. -/
theorem take_countP (h : Leading below words) :
    ∀ word ∈ words.take (words.countP below), below word = true := by
  induction words with
  | nil => simp
  | cons first rest ih =>
      obtain ⟨hfirst, hrest⟩ := List.pairwise_cons.1 h
      intro word hword
      by_cases hbelow : below first = true
      · rw [List.countP_cons_of_pos hbelow, List.take_succ_cons] at hword
        rcases List.mem_cons.1 hword with rfl | hword
        · exact hbelow
        · exact ih hrest word hword
      · have hnone : rest.countP below = 0 :=
          List.countP_eq_zero.2 fun other hother hother' => hbelow (hfirst other hother hother')
        rw [List.countP_cons_of_neg hbelow, hnone] at hword
        cases hword

/-- No word behind those that are below is below. -/
theorem drop_countP (h : Leading below words) :
    ∀ word ∈ words.drop (words.countP below), ¬ below word = true := by
  induction words with
  | nil => simp
  | cons first rest ih =>
      obtain ⟨hfirst, hrest⟩ := List.pairwise_cons.1 h
      intro word hword
      by_cases hbelow : below first = true
      · rw [List.countP_cons_of_pos hbelow, List.drop_succ_cons] at hword
        exact ih hrest word hword
      · have hnone : ∀ other ∈ rest, ¬ below other = true :=
          fun other hother hother' => hbelow (hfirst other hother hother')
        rw [List.countP_cons_of_neg hbelow, List.countP_eq_zero.2 hnone] at hword
        rcases List.mem_cons.1 hword with rfl | hword
        · exact hbelow
        · exact hnone word hword

/-- The words that are below are those in front of the boundary. -/
theorem getElem_iff (h : Leading below words) {index : Nat} (hindex : index < words.length) :
    below words[index] = true ↔ index < words.countP below := by
  constructor
  · intro hbelow
    refine Nat.lt_of_not_le fun hle => ?_
    refine h.drop_countP words[index] (List.mem_drop_iff_getElem.2 ?_) hbelow
    exact ⟨index - words.countP below, by omega, by simp only [Nat.add_sub_cancel' hle]⟩
  · intro hlt
    exact h.take_countP words[index] (List.mem_take_iff_getElem.2 ⟨index, by omega, rfl⟩)

/-- Dropping the words that are below leaves the others. -/
theorem drop_countP_eq_filter (h : Leading below words) :
    words.drop (words.countP below) = words.filter fun word => !below word := by
  have happend : words.filter (fun word => !below word) =
      (words.take (words.countP below)).filter (fun word => !below word) ++
        (words.drop (words.countP below)).filter fun word => !below word := by
    rw [← List.filter_append, List.take_append_drop]
  have htake : (words.take (words.countP below)).filter (fun word => !below word) = [] := by
    refine List.filter_eq_nil_iff.2 fun word hword => ?_
    rw [h.take_countP word hword]
    exact Bool.false_ne_true
  rw [happend, htake, List.nil_append, List.filter_eq_self.2 fun word hword => ?_]
  have hword' := h.drop_countP word hword
  simp [hword']

/-- The words that are below are those up to the first one that is not. -/
theorem takeWhile_eq_filter (h : Leading below words) :
    words.takeWhile below = words.filter below := by
  induction words with
  | nil => rfl
  | cons first rest ih =>
      obtain ⟨hfirst, hrest⟩ := List.pairwise_cons.1 h
      by_cases hbelow : below first = true
      · rw [List.takeWhile_cons_of_pos hbelow, List.filter_cons_of_pos hbelow, ih hrest]
      · rw [List.takeWhile_cons_of_neg hbelow, List.filter_cons_of_neg hbelow]
        exact (List.filter_eq_nil_iff.2 fun other hother hother' =>
          hbelow (hfirst other hother hother')).symm

/-- Where the words that are below come first, leaving them out leaves the others. -/
theorem dropWhile_eq_filter (h : Leading below words) :
    words.dropWhile below = words.filter fun word => !below word := by
  induction words with
  | nil => rfl
  | cons first rest ih =>
      obtain ⟨hfirst, hrest⟩ := List.pairwise_cons.1 h
      by_cases hbelow : below first = true
      · rw [List.dropWhile_cons_of_pos hbelow, List.filter_cons_of_neg (by simp [hbelow]),
          ih hrest]
      · rw [List.dropWhile_cons_of_neg hbelow, List.filter_cons_of_pos (by simp [hbelow])]
        rw [List.filter_eq_self.2 fun other hother => ?_]
        exact Bool.not_eq_eq_eq_not.2 (Bool.eq_false_iff.2 fun hother' =>
          hbelow (hfirst other hother hother'))

end Leading

/-- The words that are below are all before `index` and none of them is missed before it. -/
theorem countP_eq_add_countP_drop {below : Word → Bool} {words : Postings} {index : Nat}
    (hindex : index ≤ words.length) (h : ∀ word ∈ words.take index, below word = true) :
    words.countP below = index + (words.drop index).countP below := by
  have htake : (words.take index).countP below = index :=
    (List.countP_eq_length.2 h).trans (List.length_take_of_le hindex)
  have happend : (words.take index ++ words.drop index).countP below =
      (words.take index).countP below + (words.drop index).countP below := List.countP_append
  rwa [List.take_append_drop, htake] at happend

/-- Words that are not below may be cut off before counting. -/
theorem countP_eq_countP_take {below : Word → Bool} {words : Postings} {index : Nat}
    (h : ∀ word ∈ words.drop index, ¬ below word = true) :
    words.countP below = (words.take index).countP below := by
  rw [← Nat.add_zero ((words.take index).countP below), ← List.countP_eq_zero.2 h,
    ← List.countP_append, List.take_append_drop]

/-- Halving finds the number of words that are below. -/
theorem countBelow_eq_countP {below : Word → Bool} {words : Postings} (h : Leading below words) :
    countBelow below words = words.countP below := by
  fun_induction countBelow below words with
  | case1 words hseveral hmiddle hbelow ih =>
      rw [ih (h.drop _), ← countP_eq_add_countP_drop (by omega) (h.of_getElem hmiddle hbelow)]
  | case2 words hseveral hmiddle hbelow ih =>
      -- nothing from the middle on is below, so the upper half may be dropped
      have hnone := h.not_of_getElem hmiddle hbelow
      refine (ih (h.take _)).trans (countP_eq_countP_take fun word hword => hnone word ?_).symm
      rw [show words.length - words.length / 2 =
        words.length / 2 + (words.length - words.length / 2 - words.length / 2) by omega,
        ← List.drop_drop] at hword
      exact List.mem_of_mem_drop hword
  | case3 words hfew => rfl

end Postings
end Concordance
