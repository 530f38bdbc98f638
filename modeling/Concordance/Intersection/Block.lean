import Concordance.Intersection.Lanes
import Concordance.Intersection.Scalar

/-!
# Block join

The two passes of a phrase intersection, eight words of either list at a time.
The keys of the two current blocks are compared all with all; a block is left
once its last key does not exceed the other block's last key. What remains when
one list has no full block left is the merge join's work. A first pass that has
used up the right list in full blocks still owes the carries of the left words
up to the last right key.
-/

namespace Concordance

namespace Block

/-- The matches of two blocks: `move` takes the word of a matching left lane to the bits it has to
have in the right word. -/
def matchLanes (move : Word → Word) (left right : Lanes) : Postings :=
  let (inLeft, inRight) := Lanes.commonLanes (left.map Word.key) (right.map Word.key)
  let result : Lanes := (left.compress inLeft).zipWith
    (fun leftWord rightWord =>
      leftWord.key ||| (move (leftWord &&& 0xFFFF) &&& (rightWord &&& 0xFFFF)))
    (right.compress inRight)
  result.store inLeft

/-- The carries of the words of a block. -/
def carryLanes (offset : Offset) (left : Lanes) : Postings :=
  let mask := LaneMask.ofLanes fun lane => left.get lane &&& offset.leaving.toUInt64 ≠ 0
  let moved : Lanes := left.map (· + Word.groupStep)
  (moved.compress mask).store mask

/-- A bitmap moved up inside a 64-bit lane. -/
def shiftLane (offset : Offset) (values : Word) : Word :=
  values <<< offset.places.toUInt64

/-- A bitmap rotated inside a 64-bit lane, reduced to the bits that arrive in the next group. -/
def carryLane (offset : Offset) (values : Word) : Word :=
  (values <<< offset.places.toUInt64 ||| values >>> (16 - offset.places.toUInt64)) &&&
    offset.arriving.toUInt64

/-- The carries of the words whose moved key does not exceed `bound`. -/
def lateCarries (offset : Offset) (bound : Word) (lefts : Postings) : Postings :=
  ((lefts.map offset.shiftGroups).takeWhile fun moved => moved.key ≤ bound).flatMap offset.carry

/-- What a first pass still yields when one of the lists has no full block left. `bound` is the
last key of the right list, if it has one. -/
def finishFirst (offset : Offset) (bound : Option Word) (lefts rights : Postings) : FirstPass :=
  match rights, bound with
  | [], some bound => ⟨[], lateCarries offset bound lefts⟩
  | _, _ => Scalar.firstPass offset lefts rights

/-- The first pass from the current blocks on. -/
def firstPassFrom (offset : Offset) (bound : Option Word) (lefts rights : Postings) : FirstPass :=
  match hl : Lanes.split? lefts, hr : Lanes.split? rights with
  | some (left, laterLefts), some (right, laterRights) =>
      let moved := left.map offset.shiftGroups
      let leftLast := left[7].key + offset.groups
      let rightLast := right[7].key
      let matched := matchLanes (shiftLane offset) moved right
      if leftLast < rightLast then
        (firstPassFrom offset bound laterLefts rights).prepend matched (carryLanes offset moved)
      else if leftLast = rightLast then
        (firstPassFrom offset bound laterLefts laterRights).prepend matched
          (carryLanes offset moved)
      else (firstPassFrom offset bound lefts laterRights).prepend matched []
  | _, _ => finishFirst offset bound lefts rights
termination_by lefts.length + rights.length
decreasing_by
  all_goals
    have hleftLength := Lanes.length_of_split? hl
    have hrightLength := Lanes.length_of_split? hr
    omega

/-- The first pass, eight words at a time. -/
def firstPass (offset : Offset) (lefts rights : Postings) : FirstPass :=
  firstPassFrom offset (rights.getLast?.map Word.key) lefts rights

/-- The second pass, eight words at a time. -/
def secondPass (offset : Offset) (lefts rights : Postings) : Postings :=
  match hl : Lanes.split? lefts, hr : Lanes.split? rights with
  | some (left, laterLefts), some (right, laterRights) =>
      let leftLast := left[7].key
      let rightLast := right[7].key
      matchLanes (carryLane offset) left right ++
        (if leftLast < rightLast then secondPass offset laterLefts rights
        else if leftLast = rightLast then secondPass offset laterLefts laterRights
        else secondPass offset lefts laterRights)
  | _, _ => Scalar.secondPass offset lefts rights
termination_by lefts.length + rights.length
decreasing_by
  all_goals
    have hleftLength := Lanes.length_of_split? hl
    have hrightLength := Lanes.length_of_split? hr
    omega

end Block

end Concordance
