import Concordance.Posting.Postings

/-!
# Phrase offsets

Shifting a posting list by a phrase offset of `n` positions splits into a shift
by whole groups, which is an addition to the words, and a shift of the bitmaps
by the remaining `n % 16` places. Bits that a bitmap loses at the top belong to
the next group: a *carry* is the word moved one group forward, whose bitmap is
rotated instead of shifted.
-/

namespace Concordance

/-- A phrase offset, taken apart into whole groups and places. -/
structure Offset where
  /-- What moves a word by the whole groups of the offset. -/
  groups : Word
  /-- The places left over, fewer than sixteen. -/
  places : UInt16
  /-- The bits of a bitmap that leave their group. -/
  leaving : UInt16
  /-- The bits of a bitmap that arrive from the group before. -/
  arriving : UInt16
deriving DecidableEq, Repr

namespace Offset

/-- The offset of this many positions. -/
def ofLength (length : UInt32) : Offset :=
  let places := (length % 16).toUInt16
  { groups := (length / 16).toUInt64 * Word.groupStep
    places
    leaving := ~~~(0xFFFF >>> places)
    arriving := ~~~(0xFFFF <<< places) }

/-- Move a word forward by the whole groups of the offset. -/
def shiftGroups (offset : Offset) (word : Word) : Word :=
  word + offset.groups

/-- The bitmap moved up, without the bits that leave the group. -/
def shifted (offset : Offset) (bitmap : UInt16) : UInt16 :=
  bitmap <<< offset.places

/-- The bits that arrive in the next group. -/
def carriedBits (offset : Offset) (bitmap : UInt16) : UInt16 :=
  (bitmap <<< offset.places ||| bitmap >>> (16 - offset.places)) &&& offset.arriving

/-- Whether some bit of the word's bitmap leaves its group. -/
def overflows (offset : Offset) (word : Word) : Bool :=
  word.bitmap &&& offset.leaving ≠ 0

/-- The carry of a word that already stands at its shifted group: the word of the next group, if
some bit leaves the group. -/
def carry (offset : Offset) (word : Word) : Postings :=
  if offset.overflows word then [word + Word.groupStep] else []

/-- Where the words `left` and `right` of one group agree when `left` is shifted. -/
def matchShifted (offset : Offset) (left right : Word) : Word :=
  left.key ||| (offset.shifted left.bitmap &&& right.bitmap).toUInt64

/-- Where a carry `left` and the word `right` of its group agree. -/
def matchCarried (offset : Offset) (left right : Word) : Word :=
  left.key ||| (offset.carriedBits left.bitmap &&& right.bitmap).toUInt64

end Offset

end Concordance
