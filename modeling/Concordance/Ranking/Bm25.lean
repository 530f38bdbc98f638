/-!
# Weights of terms

A term weighs the more in a document the more often it occurs there, the fewer
documents it occurs in, and the shorter the document is. All arithmetic is in
single precision, in the order written here.
-/

namespace Concordance

/-- The weight of a term in an index. -/
structure Bm25 where
  /-- How rare the term is. -/
  rarity : Float32
  /-- The mean number of tokens of a document. -/
  averageLength : Float32

namespace Bm25

/-- How fast repetitions of a term lose weight. -/
def saturation : Float32 := 1.2

/-- How much the length of a document counts. -/
def lengthShare : Float32 := 0.75

/-- How rare a term is that occurs in `frequency` of `documents` documents; never negative. -/
def rarityOf (documents frequency : UInt32) : Float32 :=
  let all := documents.toFloat32
  let some := frequency.toFloat32
  let value := (1.0 + (all - some + 0.5) / (some + 0.5)).log
  if value > 0.0 then value else 0.0

/-- The weight of a term that occurs in `frequency` of `documents` documents. -/
def ofFrequency (documents frequency : UInt32) (averageLength : Float32) : Bm25 :=
  ⟨rarityOf documents frequency, averageLength⟩

/-- The weight of some occurrences of the term in a document of some length. -/
def ofOccurrences (weight : Bm25) (occurrences length : Float32) : Float32 :=
  let ratio := if weight.averageLength > 0.0 then length / weight.averageLength else 1.0
  let norm := 1.0 - lengthShare + lengthShare * ratio
  weight.rarity * (occurrences * (saturation + 1.0)) / (occurrences + saturation * norm)

/-- The score of a document with `occurrences` of the term and `length` tokens. -/
def score (weight : Bm25) (occurrences length : UInt32) : Float32 :=
  if occurrences = 0 then 0.0 else weight.ofOccurrences occurrences.toFloat32 length.toFloat32

end Bm25

end Concordance
