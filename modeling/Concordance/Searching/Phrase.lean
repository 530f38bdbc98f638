import Concordance.Fusion.Partition
import Concordance.Searching.Searcher

/-!
# Phrase search

The tokens of a phrase are cut into units of least total cost, and the posting
lists of the units are intersected one after another. The first two are neighbours
with the shortest lists; from there the range of units grows towards the side with
the shorter list, until it covers the phrase or nothing is left.

The positions that are left are those of the last unit.
-/

namespace Concordance

/-- A unit of a phrase with its posting list. -/
structure Segment where
  words : Postings
  /-- The number of tokens of the unit. -/
  length : Nat
deriving DecidableEq, Repr

/-- Two neighbours in a phrase, with the segments before them, nearest first, and after them. -/
structure Neighbours where
  before : List Segment
  left : Segment
  right : Segment
  after : List Segment

namespace Neighbours

/-- The number of words of both lists. -/
def cost (pair : Neighbours) : Nat :=
  pair.left.words.length + pair.right.words.length

/-- All neighbours in a phrase that goes on with some segments. -/
def allFrom (before : List Segment) : List Segment → List Neighbours
  | left :: right :: after =>
      ⟨before, left, right, after⟩ :: allFrom (left :: before) (right :: after)
  | _ => []

/-- The better of two pairs of neighbours: the cheaper one, or the second if they cost the same. -/
def better (first : Option Neighbours) (second : Neighbours) : Option Neighbours :=
  match first with
  | some first => if second.cost ≤ first.cost then some second else some first
  | none => some second

/-- The neighbours to begin with. -/
def cheapest? (segments : List Segment) : Option Neighbours :=
  (allFrom [] segments).foldl better none

end Neighbours

namespace Searcher

/-- Extend the range of segments that `result` stands for, until it covers those before it, which
are given nearest first, and those after it. The range begins `span` tokens before its last
segment, which has `last` tokens. -/
def grow (searcher : Searcher) (result : Postings) (span last : Nat) :
    (before after : List Segment) → Counted Postings
  | [], [] => pure result
  | left :: before, [] =>
      if result.isEmpty then pure result
      else do
        let span := span + left.length
        let result ← searcher.intersect left.words result span.toUInt32
        grow searcher result span last before []
  | [], right :: after =>
      if result.isEmpty then pure result
      else do
        let result ← searcher.intersect result right.words last.toUInt32
        grow searcher result (span + last) right.length [] after
  | left :: before, right :: after =>
      if result.isEmpty then pure result
      else if left.words.length ≤ right.words.length then do
        let span := span + left.length
        let result ← searcher.intersect left.words result span.toUInt32
        grow searcher result span last before (right :: after)
      else do
        let result ← searcher.intersect result right.words last.toUInt32
        grow searcher result (span + last) right.length (left :: before) after
termination_by before after => before.length + after.length

/-- The positions of the last segment in the places where all segments follow each other. -/
def chain (searcher : Searcher) (segments : List Segment) : Counted Postings :=
  match Neighbours.cheapest? segments with
  | some pair => do
      let result ← searcher.intersect pair.left.words pair.right.words pair.left.length.toUInt32
      searcher.grow result pair.left.length pair.right.length pair.before pair.after
  | none => pure ((segments.head?.map Segment.words).getD [])

/-- The segment of a unit, unless its posting list is missing or empty. -/
def segment? (searcher : Searcher) (unit : TokenUnit) : Option Segment :=
  match searcher.postings unit.text with
  | some words => if words.isEmpty then none else some ⟨words, unit.length⟩
  | none => none

/-- The positions of the last unit in the places where tokens follow each other. There is no list
if some unit of them is not indexed. -/
def phrasePostings (searcher : Searcher) (tokens : List String) : Searching (Option Postings) := do
  if tokens.isEmpty then return none
  ExceptT.lift (Counted.count { partitions := 1 })
  let units ← searcher.common.minimize (fun unit => .ok (searcher.wordCount unit)) tokens
  match units.mapM searcher.segment? with
  | some segments => do
      let words ← ExceptT.lift (searcher.chain segments)
      return some words
  | none => return none

/-- The documents with a text as a phrase, ascending. -/
def search (searcher : Searcher) (text : String) : Searching (List DocumentId) := do
  ExceptT.lift (Counted.count { normalizations := 1 })
  let tokens ← searcher.settings.tokenizer.tokens text
  match ← searcher.phrasePostings tokens with
  | some words => do
      ExceptT.lift (Counted.count { collections := 1 })
      return words.documents
  | none => return []

end Searcher

end Concordance
