import Concordance.Bytes
import Concordance.Posting.Word

/-!
# Document lengths

The number of tokens of each document, in a table indexed by document. The file
of the table has four bytes for each document. Documents without an entry have
length zero.
-/

namespace Concordance

/-- The number of tokens of each document. -/
structure DocumentLengths where
  lengths : Array UInt32 := #[]
deriving DecidableEq, Repr

namespace DocumentLengths

/-- Make a table at least `size` long, filling up with `filler`. -/
def extend (table : Array α) (size : Nat) (filler : α) : Array α :=
  table ++ Array.replicate (size - table.size) filler

/-- Record the length of a document. -/
def set (table : DocumentLengths) (document : DocumentId) (length : UInt32) : DocumentLengths :=
  ⟨(extend table.lengths (document.toNat + 1) 0).setIfInBounds document.toNat length⟩

/-- The length of a document. -/
def get (table : DocumentLengths) (document : DocumentId) : UInt32 :=
  table.lengths.getD document.toNat 0

/-- The file of the table. -/
def toBytes (table : DocumentLengths) : Bytes :=
  table.lengths.toList.flatMap Bytes.ofUInt32

/-- The numbers in four bytes each. Bytes at the end that make no whole number count for
nothing. -/
def numbers : Bytes → List UInt32
  | b0 :: b1 :: b2 :: b3 :: rest => (Bytes.toNat [b0, b1, b2, b3]).toUInt32 :: numbers rest
  | _ => []

/-- The table of a file. A missing file is an empty table. -/
def ofFile (file : Option Bytes) : DocumentLengths :=
  ⟨(numbers (file.getD [])).toArray⟩

/-- The number of documents the table covers. -/
def size (table : DocumentLengths) : Nat :=
  table.lengths.size

end DocumentLengths

end Concordance
