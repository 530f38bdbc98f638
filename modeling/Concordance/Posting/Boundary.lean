import Concordance.Posting.Postings

/-!
# Boundaries in posting lists

Where the words that lie below some limit stand before all others, their number is
found by halving: each step looks at the middle word and leaves out the half that
is settled by it.
-/

namespace Concordance

namespace Postings

/-- The number of leading words that are below, found by halving. The words that are below must
come first. -/
def countBelow (below : Word → Bool) (words : Postings) : Nat :=
  if hseveral : 2 ≤ words.length then
    have hmiddle : words.length / 2 < words.length := by omega
    if below words[words.length / 2] then
      words.length / 2 + countBelow below (words.drop (words.length / 2))
    else countBelow below (words.take (words.length - words.length / 2))
  else words.countP below
termination_by words.length
decreasing_by
  · simp only [List.length_drop]; omega
  · simp only [List.length_take]; omega

end Postings

end Concordance
