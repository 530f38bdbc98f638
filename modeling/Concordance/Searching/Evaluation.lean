import Concordance.Posting.DocumentSet
import Concordance.Searching.Phrase

/-!
# Evaluating boolean expressions

The documents of an expression are computed as a set. The complement of a set is
taken among all documents below the number of documents in the index.
-/

namespace Concordance

namespace Searcher

/-- The documents of an expression. The second operand of a conjunction is left alone if the first
one has no documents. -/
def evaluate (searcher : Searcher) : Expression → Searching DocumentSet
  | .term tokens => do
      match ← searcher.phrasePostings tokens with
      | some words => return DocumentSet.ofList words.documents
      | none => return DocumentSet.empty
  | .both left right => do
      let left ← evaluate searcher left
      if left.isEmpty then return left
      let right ← evaluate searcher right
      return left.inter right
  | .either left right => do
      let left ← evaluate searcher left
      let right ← evaluate searcher right
      return left.union right
  | .negated inner => do
      let inner ← evaluate searcher inner
      return (DocumentSet.below searcher.statistics.documents).diff inner

/-- The documents that satisfy a query text, ascending. -/
def searchBoolean (searcher : Searcher) (text : String) : Searching (List DocumentId) := do
  match ← searcher.parser.parse text with
  | some expression => do
      let set ← searcher.evaluate expression
      return set.documents
  | none => return []

end Searcher

end Concordance
