import Concordance.Ranking.ScorerMove
import Concordance.Ranking.TopDocuments

/-!
# Scores of matches

Standing at a document, a scorer tells the document's score: that of a term is its
weight in the document, and combinations add up the scores of the parts that match.
A preferred scorer may have been left behind and is moved first, so asking for a
score yields the scorer as well. `hits` visits all matches.
-/

namespace Concordance

namespace Scorer

/-- Add up the scores of scorers, each of which may change while it is asked. -/
def sumScores (score : Scorer → Float32 × Scorer) (sum : Float32) :
    (parts : List Scorer) → Float32 × List Scorer
  | [] => (sum, [])
  | part :: rest =>
      let (value, asked) := score part
      let (total, others) := sumScores score (sum + value) rest
      (total, asked :: others)

/-- Add up the scores of the parts that have their turns at a place, in the order of the turns. -/
def sumTurns (score : Scorer → Float32 × Scorer) (place : DocumentId) (sum : Float32)
    (parts : List Scorer) : (turns : List Turn) → Float32 × List Scorer
  | [] => (sum, parts)
  | turn :: later =>
      if turn.place = place then
        match parts[turn.index]? with
        | none => (sum, parts)
        | some part =>
            let (value, asked) := score part
            sumTurns score place (sum + value) (parts.set turn.index asked) later
      else sumTurns score place sum parts later

/-- The score of the current document of a scorer whose height is at most `height`. A scorer that
was left behind may have to move for it. -/
def scoreWithin : (height : Nat) → Scorer → Float32 × Scorer
  | _, term scorer => (scorer.score, term scorer)
  | _, all limit current => (1.0, all limit current)
  | height + 1, both parts current =>
      let (sum, parts) := sumScores (scoreWithin height) (-0.0) parts
      (sum, both parts current)
  | height + 1, any parts queue current =>
      match current with
      | none => (0.0, any parts queue current)
      | some place =>
          let (sum, parts) := sumTurns (scoreWithin height) place 0.0 parts queue.toList
          (sum, any parts queue current)
  | height + 1, without required excluded current =>
      let (value, required) := scoreWithin height required
      (value, without required excluded current)
  | height + 1, preferring required optional =>
      let (value, required) := scoreWithin height required
      if required.place = noMore then (value, preferring required optional)
      else
        let optional := moveWithin height (.advance required.place) optional
        if optional.place = required.place then
          let (extra, optional) := scoreWithin height optional
          (value + extra, preferring required optional)
        else (value, preferring required optional)
  | 0, scorer => (0.0, scorer)

/-- The score of the current document, and the scorer after it was asked. -/
def score (scorer : Scorer) : Float32 × Scorer :=
  scoreWithin scorer.height scorer

/-- Visit the remaining matches, at most `fuel` of them. Yields them with their scores, and the
scorer after them. -/
def drainWithin : (fuel : Nat) → Scorer → List Hit × Scorer
  | 0, scorer => ([], scorer)
  | fuel + 1, scorer =>
      let moved := scorer.next
      if moved.place = noMore then ([], moved)
      else
        let (score, asked) := moved.score
        let (later, drained) := drainWithin fuel asked
        (.ofScore moved.place score :: later, drained)

/-- Visit the remaining matches. There are fewer than there are documents. -/
def drain (scorer : Scorer) : List Hit × Scorer :=
  drainWithin UInt32.size scorer

/-- The remaining matches with their scores. -/
def hits (scorer : Scorer) : List Hit :=
  scorer.drain.1

end Scorer

end Concordance
