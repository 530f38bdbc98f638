import Concordance.Intersection.Block
import Concordance.Intersection.Gallop
import Concordance.Tally

/-!
# Phrase intersection

`intersect` keeps the positions of the right list that stand a given number of
positions after a position of the left list. It runs a first pass, a second pass
over the carries if there are any, and merges what the two passes found. Each
pass follows one of three strategies, which yield the same words; lists of very
different lengths are galloped through.
-/

namespace Concordance

/-- The ways of carrying out a pass. -/
inductive Strategy where
  /-- One word of either list at a time. -/
  | scalar
  /-- Skipping runs of words. -/
  | gallop
  /-- Eight words of either list at a time. -/
  | block
deriving DecidableEq, Repr

namespace Strategy

/-- The ratio of lengths from which on the first pass gallops. -/
def firstGallopRatio : Nat := 650

/-- The ratio of lengths from which on the second pass gallops. -/
def secondGallopRatio : Nat := 120

/-- The strategy used unless lists call for galloping. -/
def preferred (forceScalar : Bool) : Strategy :=
  if forceScalar then .scalar else .block

/-- Gallop if the longer list is at least `ratio` times as long as the shorter one, which must not
be empty. -/
def select (leftLength rightLength ratio : Nat) (preferred : Strategy) : Strategy :=
  let shorter := min leftLength rightLength
  let longer := max leftLength rightLength
  if 0 < shorter ∧ longer / shorter ≥ ratio then .gallop else preferred

/-- The first pass by this strategy. -/
def firstPass : Strategy → Offset → Postings → Postings → FirstPass
  | scalar => Scalar.firstPass
  | gallop => Gallop.firstPass
  | block => Block.firstPass

/-- The second pass by this strategy. -/
def secondPass : Strategy → Offset → Postings → Postings → Postings
  | scalar => Scalar.secondPass
  | gallop => Gallop.secondPass
  | block => Block.secondPass

end Strategy

namespace Postings

/-- The union of two normalized lists without the words whose bitmap is empty. -/
def merge : Postings → Postings → Postings
  | left :: lefts, right :: rights =>
      if left.key = right.key then
        dropEmpty [left ||| right] ++ merge lefts rights
      else if left.key < right.key then
        dropEmpty [left] ++ merge lefts (right :: rights)
      else dropEmpty [right] ++ merge (left :: lefts) rights
  | [], rights => dropEmpty rights
  | lefts, [] => dropEmpty lefts
termination_by lefts rights => lefts.length + rights.length

/-- The positions of `right` that stand `length` positions after a position of `left`. -/
def intersect (preferred : Strategy) (left right : Postings) (length : UInt32) :
    Counted Postings :=
  if left.isEmpty || right.isEmpty then pure []
  else do
    let offset := Offset.ofLength length
    let strategy := Strategy.select left.length right.length Strategy.firstGallopRatio preferred
    let first := strategy.firstPass offset left right
    Counted.count { firstPasses := 1 }
    if first.carries.isEmpty then pure (dropEmpty first.matched)
    else do
      let strategy := Strategy.select first.carries.length right.length
        Strategy.secondGallopRatio preferred
      let carried := strategy.secondPass offset first.carries right
      Counted.count { secondPasses := 1, merges := 1 }
      pure (merge first.matched carried)

end Postings

end Concordance
