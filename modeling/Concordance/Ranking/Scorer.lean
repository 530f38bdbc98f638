import Concordance.Ranking.Turns

/-!
# Scorers

A scorer goes through the documents of a selection in ascending order. At first it
stands before all documents. It moves to the next match, or to the first match from
some document on; from a document at or behind that one it does not move. When
there is no further match it stands at `noMore` for good.

The scorer of a combination moves the scorers of its parts, some of which stay
behind until they are needed. Since the parts change while they are moved, scorers
are worked on by recursion on their height.
-/

namespace Concordance

/-- A selection that is being gone through. The parts of a disjunction that are not at their end
have turns in a queue. -/
inductive Scorer where
  | term (scorer : TermScorer)
  | all (limit : DocumentId) (current : Option DocumentId)
  | both (parts : List Scorer) (current : Option DocumentId)
  | any (parts : List Scorer) (queue : TurnQueue) (current : Option DocumentId)
  | without (required excluded : Scorer) (current : Option DocumentId)
  | preferring (required optional : Scorer)

namespace Scorer

/-- Where the scorer stands, unless it has not moved yet. -/
def document : Scorer → Option DocumentId
  | term scorer => scorer.current
  | all _ current => current
  | both _ current => current
  | any _ _ current => current
  | without _ _ current => current
  | preferring required _ => required.document

/-- Where the scorer stands, as answered after a move. -/
def place (scorer : Scorer) : DocumentId :=
  scorer.document.getD noMore

/-- The number of set bits of the current document, for the scorer of a posting list. -/
def frequency? : Scorer → Option UInt32
  | term scorer => some scorer.frequency
  | _ => none

/-- Whether a place lies before a document. -/
def isBefore (current : Option DocumentId) (target : DocumentId) : Bool :=
  match current with
  | some document => document < target
  | none => true

mutual

/-- How deeply scorers are nested. -/
def height : Scorer → Nat
  | term _ => 0
  | all _ _ => 0
  | both parts _ => heights parts + 1
  | any parts _ _ => heights parts + 1
  | without required excluded _ => max required.height excluded.height + 1
  | preferring required optional => max required.height optional.height + 1

/-- The greatest height of some scorers. -/
def heights : List Scorer → Nat
  | [] => 0
  | first :: rest => max first.height (heights rest)

end

end Scorer

end Concordance
