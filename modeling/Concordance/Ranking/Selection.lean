import Concordance.Posting.Postings
import Concordance.Ranking.Bm25

/-!
# Selections

A selection says which documents to go through: those of a posting list, all
documents below a limit, or a combination of other selections. Posting lists come
with what is needed to score their documents.
-/

namespace Concordance

/-- A posting list with what is needed to score its documents. -/
structure WeightedPostings where
  words : Postings
  weight : Bm25
  /-- The number of tokens of each document. -/
  lengths : DocumentId → UInt32

/-- Which documents to go through. -/
inductive Selection where
  /-- The documents of a posting list. -/
  | term (list : WeightedPostings)
  /-- The documents below a limit. -/
  | all (limit : DocumentId)
  /-- The documents common to all parts. -/
  | both (parts : List Selection)
  /-- The documents of any part. -/
  | any (parts : List Selection)
  /-- The documents of one selection that are not in another. -/
  | without (required excluded : Selection)
  /-- The documents of one selection, scored higher if they are in another. -/
  | preferring (required optional : Selection)

end Concordance
