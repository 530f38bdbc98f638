import Concordance.Posting.Word

/-!
# Lanes

Eight words that are worked on side by side. A mask has one bit for each lane.
`commonLanes` finds, for two blocks of lanes, which lanes of either occur in the
other: it compares the left block, rotated by zero, two, four and six lanes,
with the right block as it is and with its neighbouring lanes swapped, which
covers every pair of lanes.
-/

namespace Concordance

/-- Eight words side by side. -/
abbrev Lanes := Vector Word 8

/-- A choice of lanes: bit `i` stands for lane `i`. -/
abbrev LaneMask := BitVec 8

/-- The mask of the lanes that satisfy a condition. -/
def LaneMask.ofLanes (chosen : Fin 8 → Bool) : LaneMask :=
  (List.finRange 8).foldl
    (fun mask lane => if chosen lane then mask ||| BitVec.twoPow 8 lane.val else mask) 0

/-- The lanes of a mask, ascending. -/
def LaneMask.toList (mask : LaneMask) : List (Fin 8) :=
  (List.finRange 8).filter fun lane => mask.getLsbD lane.val

namespace Lanes

/-- The first eight words of a list and the words after them, if there are as many. -/
def split? : List Word → Option (Lanes × List Word)
  | w0 :: w1 :: w2 :: w3 :: w4 :: w5 :: w6 :: w7 :: rest =>
      some (#v[w0, w1, w2, w3, w4, w5, w6, w7], rest)
  | _ => none

/-- The words after a block are eight fewer. -/
theorem length_of_split? {words rest : List Word} {lanes : Lanes}
    (found : split? words = some (lanes, rest)) : words.length = rest.length + 8 := by
  unfold split? at found
  split at found
  · simp only [Option.some.injEq, Prod.mk.injEq] at found
    simp [← found.2]
  · simp at found

/-- Lane `i` takes the word of lane `i + count`, counted around. -/
def rotate (lanes : Lanes) (count : Nat) : Lanes :=
  Vector.ofFn fun lane => lanes.get ⟨(lane.val + count) % 8, Nat.mod_lt _ (by decide)⟩

/-- Each even lane changes places with the lane after it. -/
def swapPairs (lanes : Lanes) : Lanes :=
  #v[lanes[1], lanes[0], lanes[3], lanes[2], lanes[5], lanes[4], lanes[7], lanes[6]]

/-- The lanes in which two blocks hold the same word. -/
def equal (left right : Lanes) : LaneMask :=
  LaneMask.ofLanes fun lane => left[lane] = right[lane]

/-- The lanes of `left` whose word occurs in `right`, and the lanes of `right` whose word occurs
in `left`. -/
def commonLanes (left right : Lanes) : LaneMask × LaneMask :=
  let left1 := left.rotate 2
  let left2 := left.rotate 4
  let left3 := left.rotate 6
  let swapped := right.swapPairs
  let m00 := equal left right
  let m01 := equal left swapped
  let m10 := equal left1 right
  let m11 := equal left1 swapped
  let m20 := equal left2 right
  let m21 := equal left2 swapped
  let m30 := equal left3 right
  let m31 := equal left3 swapped
  let inLeft := m00 ||| m01 ||| (m10 ||| m11).rotateLeft 2 ||| (m20 ||| m21).rotateLeft 4 |||
    (m30 ||| m31).rotateLeft 6
  let direct := m00 ||| m10 ||| m20 ||| m30
  let crossed := m01 ||| m11 ||| m21 ||| m31
  let inRight := direct ||| ((crossed &&& 0x55) <<< 1) ||| ((crossed >>> 1) &&& 0x55)
  (inLeft, inRight)

/-- The words of the chosen lanes, moved together to the front; zeros follow. -/
def compress (lanes : Lanes) (mask : LaneMask) : Lanes :=
  let chosen := mask.toList.map fun lane => lanes[lane]
  Vector.ofFn fun lane => chosen.getD lane.val 0

/-- The words of the first lanes, as many as the mask has. -/
def store (lanes : Lanes) (mask : LaneMask) : List Word :=
  lanes.toList.take mask.toList.length

end Lanes

end Concordance
