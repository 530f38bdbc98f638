import Concordance.Proofs.Ordered
import Concordance.Proofs.Posting.Canonical

/-!
# Words that meet

Two lists with ascending keys are joined by pairing up the words of equal slots, the left ones
moved by a number of groups: these words `Meet`. A join may leave behind a word or a block of words
as soon as the other list has gone past it (`meet_cons_lt`, `meet_leaving_left` and their
companions), and the words of the keys that two lists have in common are those that meet
(`mem_zipWith_common`).
-/

namespace Concordance
namespace Postings

/-! ## Pairs of words -/

/-- Some left word, moved by whole groups, meets a right word of the same slot. -/
def Meet (groups : Nat) (lefts rights : Postings) (related : Word → Word → Prop) : Prop :=
  ∃ left ∈ lefts, ∃ right ∈ rights, left.slot + groups = right.slot ∧ related left right

variable {groups : Nat} {left right : Word} {lefts rights : Postings}
  {related : Word → Word → Prop}

/-- First words that meet have no other word to meet. -/
theorem meet_cons_eq (hlefts : Ascending (left :: lefts)) (hrights : Ascending (right :: rights))
    (h : left.slot + groups = right.slot) :
    Meet groups (left :: lefts) (right :: rights) related ↔
      related left right ∨ Meet groups lefts rights related := by
  have hl := (ascending_cons.1 hlefts).1
  have hr := (ascending_cons.1 hrights).1
  constructor
  · intro hfound
    obtain ⟨l, hlm, r, hrm, heq, hrel⟩ := hfound
    rcases List.mem_cons.1 hlm with rfl | hlm
    · rcases List.mem_cons.1 hrm with rfl | hrm
      · exact Or.inl hrel
      · have hlt := hr r hrm
        omega
    · rcases List.mem_cons.1 hrm with rfl | hrm
      · have hlt := hl l hlm
        omega
      · exact Or.inr ⟨l, hlm, r, hrm, heq, hrel⟩
  · rintro (hrel | ⟨l, hlm, r, hrm, heq, hrel⟩)
    · exact ⟨left, List.mem_cons_self, right, List.mem_cons_self, h, hrel⟩
    · exact ⟨l, List.mem_cons_of_mem _ hlm, r, List.mem_cons_of_mem _ hrm, heq, hrel⟩

/-- A first left word below the right list meets no word. -/
theorem meet_cons_lt (hrights : Ascending (right :: rights)) (h : left.slot + groups < right.slot) :
    Meet groups (left :: lefts) (right :: rights) related ↔
      Meet groups lefts (right :: rights) related := by
  have hr := (ascending_cons.1 hrights).1
  constructor
  · intro hfound
    obtain ⟨l, hlm, r, hrm, heq, hrel⟩ := hfound
    rcases List.mem_cons.1 hlm with rfl | hlm
    · rcases List.mem_cons.1 hrm with rfl | hrm
      · omega
      · have hlt := hr r hrm
        omega
    · exact ⟨l, hlm, r, hrm, heq, hrel⟩
  · intro hfound
    obtain ⟨l, hlm, r, hrm, heq, hrel⟩ := hfound
    exact ⟨l, List.mem_cons_of_mem _ hlm, r, hrm, heq, hrel⟩

/-- A first right word below the left list meets no word. -/
theorem meet_cons_gt (hlefts : Ascending (left :: lefts)) (h : right.slot < left.slot + groups) :
    Meet groups (left :: lefts) (right :: rights) related ↔
      Meet groups (left :: lefts) rights related := by
  have hl := (ascending_cons.1 hlefts).1
  constructor
  · intro hfound
    obtain ⟨l, hlm, r, hrm, heq, hrel⟩ := hfound
    rcases List.mem_cons.1 hrm with rfl | hrm
    · rcases List.mem_cons.1 hlm with rfl | hlm
      · omega
      · have hlt := hl l hlm
        omega
    · exact ⟨l, hlm, r, hrm, heq, hrel⟩
  · intro hfound
    obtain ⟨l, hlm, r, hrm, heq, hrel⟩ := hfound
    exact ⟨l, hlm, r, List.mem_cons_of_mem _ hrm, heq, hrel⟩

/-- Nothing meets in an empty list. -/
theorem not_meet (h : lefts = [] ∨ rights = []) : ¬ Meet groups lefts rights related := by
  intro hfound
  obtain ⟨l, hlm, r, hrm, -⟩ := hfound
  rcases h with rfl | rfl
  · cases hlm
  · cases hrm

/-! ## Common keys -/

/-- The words of a list whose key occurs in another list. -/
def common (words others : Postings) : Postings :=
  words.filter fun word => decide (word.key ∈ others.map Word.key)

/-- The common words of a list are those with a partner in the other list. -/
theorem mem_common {words others : Postings} {word : Word} :
    word ∈ common words others ↔ word ∈ words ∧ ∃ other ∈ others, other.slot = word.slot := by
  rw [common, List.mem_filter, decide_eq_true_eq, List.mem_map]
  simp only [Word.key_eq_iff]

/-- The common words of an ascending list ascend. -/
theorem Ascending.common {words : Postings} (h : words.Ascending) (others : Postings) :
    Ascending (common words others) :=
  h.sublist List.filter_sublist

/-- Two lists have the same common keys. -/
theorem map_slot_common (hlefts : lefts.Ascending) (hrights : rights.Ascending) :
    (common lefts rights).map Word.slot = (common rights lefts).map Word.slot := by
  refine Ordered.eq_of_pairwise (fun a b => Nat.lt_asymm)
    (ascending_iff_map_slot.1 (hlefts.common rights))
    (ascending_iff_map_slot.1 (hrights.common lefts)) ?_
  intro slot
  constructor
  · intro h
    obtain ⟨word, hword, rfl⟩ := List.mem_map.1 h
    obtain ⟨hleft, right, hright, heq⟩ := mem_common.1 hword
    exact List.mem_map.2 ⟨right, mem_common.2 ⟨hright, word, hleft, heq.symm⟩, heq⟩
  · intro h
    obtain ⟨word, hword, rfl⟩ := List.mem_map.1 h
    obtain ⟨hright, left, hleft, heq⟩ := mem_common.1 hword
    exact List.mem_map.2 ⟨left, mem_common.2 ⟨hleft, word, hright, heq.symm⟩, heq⟩

/-- The words of the common keys, taken side by side, are the words that meet. -/
theorem mem_zipWith_common (hlefts : lefts.Ascending) (hrights : rights.Ascending)
    {f : Word → Word → Word} {word : Word} :
    word ∈ List.zipWith f (common lefts rights) (common rights lefts) ↔
      Meet 0 lefts rights fun left right => word = f left right := by
  rw [Ordered.mem_zipWith_of_map_eq (ascending_iff_map_slot.1 (hlefts.common rights))
    (map_slot_common hlefts hrights)]
  constructor
  · intro h
    obtain ⟨left, hleft, right, hright, heq, rfl⟩ := h
    exact ⟨left, (mem_common.1 hleft).1, right, (mem_common.1 hright).1, heq, rfl⟩
  · intro h
    obtain ⟨left, hleft, right, hright, heq, rfl⟩ := h
    exact ⟨left, mem_common.2 ⟨hleft, right, hright, heq.symm⟩, right,
      mem_common.2 ⟨hright, left, hleft, heq⟩, heq, rfl⟩

/-! ## Leaving blocks behind -/

/-- Words meet in a list of two parts if they meet in either part on the left. -/
theorem meet_append_left {first second : Postings} :
    Meet groups (first ++ second) rights related ↔
      Meet groups first rights related ∨ Meet groups second rights related := by
  simp only [Meet, List.mem_append, or_and_right, exists_or]

/-- Words meet in a list of two parts if they meet in either part on the right. -/
theorem meet_append_right {first second : Postings} :
    Meet groups lefts (first ++ second) related ↔
      Meet groups lefts first related ∨ Meet groups lefts second related := by
  simp only [Meet, List.mem_append, or_and_right, exists_or, and_or_left]

/-- Words that remain below all right words meet none of them. -/
theorem not_meet_of_lt (h : ∀ left ∈ lefts, ∀ right ∈ rights, left.slot + groups < right.slot) :
    ¬ Meet groups lefts rights related := by
  intro hfound
  obtain ⟨left, hleft, right, hright, heq, -⟩ := hfound
  have hlt := h left hleft right hright
  omega

/-- Words that get above all right words meet none of them. -/
theorem not_meet_of_gt (h : ∀ left ∈ lefts, ∀ right ∈ rights, right.slot < left.slot + groups) :
    ¬ Meet groups lefts rights related := by
  intro hfound
  obtain ⟨left, hleft, right, hright, heq, -⟩ := hfound
  have hlt := h left hleft right hright
  omega

/-- Left words that are moved below the later right words have met all they can meet. -/
theorem meet_leaving_left {first laters : Postings}
    (h : ∀ left ∈ first, ∀ right ∈ laters, left.slot + groups < right.slot) :
    Meet groups (first ++ lefts) (rights ++ laters) related ↔
      Meet groups first rights related ∨ Meet groups lefts (rights ++ laters) related := by
  rw [meet_append_left, meet_append_right, or_iff_left (not_meet_of_lt h)]

/-- Right words below the later left words have met all they can meet. -/
theorem meet_leaving_right {first laters : Postings}
    (h : ∀ left ∈ laters, ∀ right ∈ first, right.slot < left.slot + groups) :
    Meet groups (lefts ++ laters) (first ++ rights) related ↔
      Meet groups lefts first related ∨ Meet groups (lefts ++ laters) rights related := by
  rw [meet_append_right, meet_append_left, or_iff_left (not_meet_of_gt h)]

/-- Words on both sides have met all they can meet. -/
theorem meet_leaving_both {first second : Postings}
    (hfirst : ∀ left ∈ first, ∀ right ∈ rights, left.slot + groups < right.slot)
    (hsecond : ∀ left ∈ lefts, ∀ right ∈ second, right.slot < left.slot + groups) :
    Meet groups (first ++ lefts) (second ++ rights) related ↔
      Meet groups first second related ∨ Meet groups lefts rights related := by
  rw [meet_leaving_left hfirst, meet_append_right, or_iff_right (not_meet_of_gt hsecond)]

/-- Two lists of words found where words meet ascend together if the words that meet for the
second list are later ones on one side. -/
theorem ascending_append_of_meet {first second laterLefts laterRights words laters : Postings}
    (hwords : words.Ascending) (hlaters : laters.Ascending)
    (hfirst : ∀ word ∈ words, Meet groups first second fun _ right => word.slot = right.slot)
    (hsecond : ∀ word ∈ laters,
      Meet groups laterLefts laterRights fun _ right => word.slot = right.slot)
    (hlt : (∀ a ∈ first, ∀ b ∈ laterLefts, a.slot < b.slot) ∨
      ∀ a ∈ second, ∀ b ∈ laterRights, a.slot < b.slot) :
    Ascending (words ++ laters) := by
  refine List.pairwise_append.2 ⟨hwords, hlaters, fun word hword later hlater => ?_⟩
  obtain ⟨l, hl, r, hr, heq, hslot⟩ := hfirst word hword
  obtain ⟨l', hl', r', hr', heq', hslot'⟩ := hsecond later hlater
  rw [Word.key_lt_iff, hslot, hslot']
  rcases hlt with hlt | hlt
  · have h := hlt l hl l' hl'
    omega
  · have h := hlt r hr r' hr'
    omega

end Postings
end Concordance
