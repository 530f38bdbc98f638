/-!
# Posting words

A posting word packs a document, a group of sixteen consecutive token positions
and a bitmap of the positions present in that group into 64 bits, from high to
low: 32 bits of document, 16 bits of group and 16 bits of bitmap. Bit `b` of the
bitmap stands for position `16 * group + b`. The high 48 bits are the word's
key. `Word.addresses` gives the meaning of a word as a list of numbers
`2 ^ 20 * document + position`, one for each set bit.
-/

namespace Concordance

/-- A document identifier. -/
abbrev DocumentId := UInt32

/-- A token position inside a document. -/
abbrev Position := UInt32

/-- A document, a group of sixteen positions and the bitmap of that group. -/
abbrev Word := UInt64

/-- Positions from here on have no group of their own and are never indexed. -/
def Position.limit : Position := 16 * 65535

/-- The group of a position. Only sixteen bits of it are kept. -/
def Position.group (position : Position) : UInt16 :=
  (position / 16).toUInt16

/-- The place of a position inside its group. -/
def Position.offset (position : Position) : UInt16 :=
  (position % 16).toUInt16

namespace Word

/-- The word of a document with neither group nor bitmap. -/
def ofDocument (document : DocumentId) : Word :=
  document.toUInt64 <<< 32

/-- The word of a group with neither document nor bitmap. -/
def ofGroup (group : UInt16) : Word :=
  group.toUInt64 <<< 16

/-- The word in which only the bit of one place of a group is set. -/
def ofOffset (offset : UInt16) : Word :=
  1 <<< offset.toUInt64

/-- The word of a document, a group and a bitmap. -/
def pack (document : DocumentId) (group : UInt16) (bitmap : UInt16) : Word :=
  ofDocument document ||| ofGroup group ||| bitmap.toUInt64

/-- The distance between the words of neighbouring groups. -/
def groupStep : Word := 0x10000

/-- Document and group, with an empty bitmap. -/
def key (word : Word) : Word :=
  word &&& 0xFFFFFFFFFFFF0000

/-- The document, with neither group nor bitmap. -/
def documentKey (word : Word) : Word :=
  word &&& 0xFFFFFFFF00000000

/-- The document of a word. -/
def document (word : Word) : DocumentId :=
  (word >>> 32).toUInt32

/-- The group of a word. -/
def group (word : Word) : UInt16 :=
  (word >>> 16).toUInt16

/-- The bitmap of a word. -/
def bitmap (word : Word) : UInt16 :=
  word.toUInt16

/-- The word of a single position of a document. -/
def ofPosition (document : DocumentId) (position : Position) : Word :=
  ofDocument document ||| ofGroup position.group ||| ofOffset position.offset

/-- The places of the set bits of the bitmap, ascending. -/
def offsets (word : Word) : List Nat :=
  (List.range 16).filter fun offset => word.bitmap.toNat.testBit offset

/-- The number of set bits of the bitmap. -/
def count (word : Word) : Nat :=
  word.offsets.length

/-- The number of set bits among the lowest four of a word. -/
def lowOnes (word : Word) : UInt32 :=
  -- the digits from low to high are the numbers of set bits of 0 to 15
  ((0x4332322132212110 >>> (4 * (word &&& 15))) &&& 15).toUInt32

/-- The number of set bits of the bitmap, in 32 bits. -/
def ones (word : Word) : UInt32 :=
  word.lowOnes + (word >>> 4).lowOnes + (word >>> 8).lowOnes + (word >>> 12).lowOnes

/-- The meaning of a word: for each set bit, the position it stands for in one numbering of all
positions of all documents, in which a document spans `2 ^ 20` positions. -/
def addresses (word : Word) : List Nat :=
  word.offsets.map fun offset => word.toNat / 0x10000 * 16 + offset

end Word

end Concordance
