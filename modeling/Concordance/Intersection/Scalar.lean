import Concordance.Intersection.Offset

/-!
# Merge join

The two passes of a phrase intersection as merge joins of two lists with
ascending keys. The first pass shifts the left list by whole groups, matches the
bitmaps of equal keys and collects the carries of the left words it passes. The
second pass matches the carries against the right list. Both stop at the end of
either list.
-/

namespace Concordance

/-- What a first pass yields: a word for each key that both lists have, possibly with an empty
bitmap, and the carries still to be matched. -/
structure FirstPass where
  matched : Postings := []
  carries : Postings := []
deriving DecidableEq, Repr

/-- Put words in front of what a later part of a pass yields. -/
def FirstPass.prepend (matched carries : Postings) (later : FirstPass) : FirstPass :=
  ⟨matched ++ later.matched, carries ++ later.carries⟩

namespace Scalar

/-- The first pass, one word at a time. -/
def firstPass (offset : Offset) : Postings → Postings → FirstPass
  | left :: lefts, right :: rights =>
      let moved := offset.shiftGroups left
      if moved.key = right.key then
        (firstPass offset lefts rights).prepend [offset.matchShifted moved right]
          (offset.carry moved)
      else if moved.key < right.key then
        (firstPass offset lefts (right :: rights)).prepend [] (offset.carry moved)
      else firstPass offset (left :: lefts) rights
  | _, _ => {}
termination_by lefts rights => lefts.length + rights.length

/-- The second pass, one word at a time. -/
def secondPass (offset : Offset) : Postings → Postings → Postings
  | left :: lefts, right :: rights =>
      if left.key = right.key then
        offset.matchCarried left right :: secondPass offset lefts rights
      else if left.key < right.key then secondPass offset lefts (right :: rights)
      else secondPass offset (left :: lefts) rights
  | _, _ => []
termination_by lefts rights => lefts.length + rights.length

end Scalar

end Concordance
