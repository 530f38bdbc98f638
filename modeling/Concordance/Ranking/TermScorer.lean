import Concordance.Posting.Boundary
import Concordance.Ranking.Selection

/-!
# Scorers of posting lists

A posting list is gone through document by document. The frequency of a document is
the number of set bits of its words, counted in 32 bits, and a document of frequency
zero is left out.
-/

namespace Concordance

/-- The place behind all documents. -/
def noMore : DocumentId := 0xFFFFFFFF

/-- Where a scorer of a posting list stands. -/
structure TermScorer where
  /-- The words still ahead. -/
  ahead : Postings
  current : Option DocumentId := none
  /-- The number of set bits of the current document. -/
  frequency : UInt32 := 0
  weight : Bm25
  lengths : DocumentId → UInt32

namespace TermScorer

/-- Add the set bits of the words of a document at the head of a list to a frequency. Yields the
words behind them as well. -/
def gather (document : DocumentId) (frequency : UInt32) : (words : Postings) → UInt32 × Postings
  | [] => (frequency, [])
  | word :: rest =>
      if word.document = document then gather document (frequency + word.ones) rest
      else (frequency, word :: rest)

/-- Gathering leaves no more words than there are. -/
theorem length_gather_le (document : DocumentId) (frequency : UInt32) (words : Postings) :
    (gather document frequency words).2.length ≤ words.length := by
  induction words generalizing frequency with
  | nil => exact Nat.le_refl 0
  | cons word rest ih =>
      rw [gather]
      split
      · exact Nat.le_succ_of_le (ih _)
      · exact Nat.le_refl _

/-- Move to the next document of a frequency other than zero among the words `ahead`. -/
def nextAmong (scorer : TermScorer) : (ahead : Postings) → TermScorer
  | [] => { scorer with ahead := [], current := some noMore, frequency := 0 }
  | word :: rest =>
      let gathered := gather word.document word.ones rest
      if 0 < gathered.1 then
        { scorer with
          ahead := gathered.2
          current := some word.document
          frequency := gathered.1 }
      else nextAmong scorer gathered.2
termination_by ahead => ahead.length
decreasing_by exact Nat.lt_succ_of_le (length_gather_le _ _ rest)

/-- Move to the next document. -/
def next (scorer : TermScorer) : TermScorer :=
  scorer.nextAmong scorer.ahead

/-- Move to the first document from `target` on that is still ahead. -/
def seek (scorer : TermScorer) (target : DocumentId) : TermScorer :=
  scorer.nextAmong
    (scorer.ahead.drop (Postings.countBelow (fun word => word.document < target) scorer.ahead))

/-- The score of the current document, zero where there is none. -/
def score (scorer : TermScorer) : Float32 :=
  match scorer.current with
  | some document =>
      if document = noMore then 0.0
      else scorer.weight.score scorer.frequency (scorer.lengths document)
  | none => 0.0

end TermScorer

end Concordance
