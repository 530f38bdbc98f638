import Concordance.Posting.Word

/-!
# Best documents

Documents are collected one by one with their scores, and only the best ones are
kept. A higher score is better, and of two equal scores that of the lesser
document. Scores are compared as their bit patterns order them: negative before
positive, and by magnitude, so that also infinities and values that are not
numbers have their place.
-/

namespace Concordance

/-- A document with its score, which is held as its bit pattern: values that are not numbers may
differ in nothing else. -/
structure Hit where
  document : DocumentId
  bits : UInt32
deriving DecidableEq, Repr

namespace Hit

/-- A document with a score that was computed. -/
def ofScore (document : DocumentId) (score : Float32) : Hit :=
  ⟨document, score.toBits⟩

/-- The score as a number. -/
def score (hit : Hit) : Float32 :=
  Float32.ofBits hit.bits

/-- The place of a bit pattern in the order of all scores. -/
def rank (bits : UInt32) : Nat :=
  if bits.toNat < 0x80000000 then bits.toNat + 0x80000000 else 0xFFFFFFFF - bits.toNat

/-- Whether a hit is better than another. -/
def better (first second : Hit) : Bool :=
  rank first.bits > rank second.bits ||
    (rank first.bits == rank second.bits && first.document < second.document)

end Hit

/-- The best documents collected so far. -/
structure TopDocuments where
  /-- The most documents to keep. -/
  limit : Nat
  /-- The documents kept, best first. -/
  hits : List Hit := []
  /-- The number of documents collected. -/
  collected : Nat := 0

namespace TopDocuments

/-- Put a hit in front of the first one that it is better than. -/
def insert (hit : Hit) : List Hit → List Hit
  | [] => [hit]
  | other :: rest => if hit.better other then hit :: other :: rest else other :: insert hit rest

/-- What is kept once a hit is there as well. If no more may be kept, the hit takes the place of
the worst one if it is better. -/
def keep (limit : Nat) (hits : List Hit) (hit : Hit) : List Hit :=
  if limit = 0 then hits
  else if hits.length < limit then insert hit hits
  else
    match hits.getLast? with
    | some worst => if hit.better worst then insert hit hits.dropLast else hits
    | none => hits

/-- Collect a document. -/
def collect (top : TopDocuments) (hit : Hit) : TopDocuments :=
  { top with hits := keep top.limit top.hits hit, collected := top.collected + 1 }

end TopDocuments

end Concordance
