import Concordance.Intersection.Scalar
import Concordance.Posting.Boundary

/-!
# Galloping join

When one list is much longer than the other, most of its words lie below the
next word of the other list. `gallop` finds the end of such a run by strides
that double until they overshoot, followed by a binary search of the last
stride. The two passes yield what the merge join yields.
-/

namespace Concordance

namespace Gallop

/-- The number of leading words that are below, the first of which is known to be. The strides
double from `1 <<< power` on. -/
def leap (below : Word → Bool) (power : Nat) (words : List Word) : Nat :=
  if hstride : 1 <<< power < words.length then
    if below words[1 <<< power] then
      1 <<< power + leap below (power + 1) (words.drop (1 <<< power))
    else 1 + Postings.countBelow below ((words.drop 1).take (1 <<< power - 1))
  else 1 + Postings.countBelow below (words.drop 1)
termination_by words.length
decreasing_by
  have : 0 < 1 <<< power := Nat.one_shiftLeft power ▸ Nat.two_pow_pos power
  simp only [List.length_drop]; omega

/-- The first index after `start` at which the key, moved forward by `shift`, is not below the
target, or the length of the list. The word at `start` must be below the target. -/
def gallop (words : List Word) (start : Nat) (shift target : Word) : Nat :=
  start + leap (fun word => word.key + shift < target) 0 (words.drop start)

/-- A leap passes at least one word. -/
theorem leap_pos (below : Word → Bool) (power : Nat) (words : List Word) :
    0 < leap below power words := by
  unfold leap
  have : 0 < 1 <<< power := Nat.one_shiftLeft power ▸ Nat.two_pow_pos power
  split
  · split <;> omega
  · omega

/-- Galloping moves forward. -/
theorem lt_gallop (words : List Word) (start : Nat) (shift target : Word) :
    start < gallop words start shift target := by
  have := leap_pos (fun word => word.key + shift < target) 0 (words.drop start)
  unfold gallop
  omega

/-- The first pass, skipping runs of words below the other list's next word. Skipped left words
still leave their carries. -/
def firstPass (offset : Offset) : Postings → Postings → FirstPass
  | left :: lefts, right :: rights =>
      let moved := offset.shiftGroups left
      if moved.key = right.key then
        (firstPass offset lefts rights).prepend [offset.matchShifted moved right]
          (offset.carry moved)
      else if moved.key < right.key then
        let skipped := gallop (left :: lefts) 0 offset.groups right.key
        (firstPass offset ((left :: lefts).drop skipped) (right :: rights)).prepend []
          (((left :: lefts).take skipped).flatMap fun word =>
            offset.carry (offset.shiftGroups word))
      else
        firstPass offset (left :: lefts)
          ((right :: rights).drop (gallop (right :: rights) 0 0 moved.key))
  | _, _ => {}
termination_by lefts rights => lefts.length + rights.length
decreasing_by
  · simp only [List.length_cons]; omega
  · have := lt_gallop (left :: lefts) 0 offset.groups right.key
    simp only [List.length_drop, List.length_cons]; omega
  · have := lt_gallop (right :: rights) 0 0 (offset.shiftGroups left).key
    simp only [List.length_drop, List.length_cons]; omega

/-- The second pass, skipping runs of words below the other list's next word. -/
def secondPass (offset : Offset) : Postings → Postings → Postings
  | left :: lefts, right :: rights =>
      if left.key = right.key then
        offset.matchCarried left right :: secondPass offset lefts rights
      else if left.key < right.key then
        secondPass offset ((left :: lefts).drop (gallop (left :: lefts) 0 0 right.key))
          (right :: rights)
      else
        secondPass offset (left :: lefts)
          ((right :: rights).drop (gallop (right :: rights) 0 0 left.key))
  | _, _ => []
termination_by lefts rights => lefts.length + rights.length
decreasing_by
  · simp only [List.length_cons]; omega
  · have := lt_gallop (left :: lefts) 0 0 right.key
    simp only [List.length_drop, List.length_cons]; omega
  · have := lt_gallop (right :: rights) 0 0 left.key
    simp only [List.length_drop, List.length_cons]; omega

end Gallop

end Concordance
