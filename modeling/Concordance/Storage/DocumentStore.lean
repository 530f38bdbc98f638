import Concordance.Failure
import Concordance.Posting.Word
import Concordance.Storage.DocumentLengths

/-!
# Document stores

The contents of all documents stand one after another in one file. A second file
has sixteen bytes for each document: the place and the length of its content.
Documents without a record, and documents with an empty one, have no content.
-/

namespace Concordance

/-- Where the content of a document lies. -/
structure Extent where
  start : Nat := 0
  length : Nat := 0
deriving DecidableEq, Repr

/-- The places of the contents of documents, indexed by document. -/
structure DocumentExtents where
  extents : Array Extent := #[]
deriving DecidableEq, Repr

namespace DocumentExtents

/-- Record the place of a document's content. -/
def set (table : DocumentExtents) (document : DocumentId) (extent : Extent) : DocumentExtents :=
  ⟨(DocumentLengths.extend table.extents (document.toNat + 1) {}).setIfInBounds document.toNat
    extent⟩

/-- The file of the table. -/
def toBytes (table : DocumentExtents) : Bytes :=
  table.extents.toList.flatMap fun extent =>
    Bytes.ofUInt64 extent.start.toUInt64 ++ Bytes.ofUInt64 extent.length.toUInt64

end DocumentExtents

/-- The two files of a store. A file that is missing or empty is `none`. -/
structure DocumentStore where
  contents : Option Bytes
  extents : Option Bytes
deriving DecidableEq, Repr

namespace DocumentStore

/-- A file of the store, unless it is missing or empty. -/
def nonempty (file : Option Bytes) : Option Bytes :=
  file.filter fun bytes => !bytes.isEmpty

/-- The store of two files. -/
def ofFiles (contents extents : Option Bytes) : DocumentStore :=
  ⟨nonempty contents, nonempty extents⟩

/-- The number in eight bytes, which may be negative. -/
def signed (bytes : Bytes) : Int :=
  bytes.toNat.toUInt64.toInt64.toInt

/-- The content of a document, if it has any. -/
def get (store : DocumentStore) (document : DocumentId) : Except Failure (Option String) :=
  match store.contents, store.extents with
  | some contents, some extents =>
      let record := extents.slice (16 * document.toNat) 16
      if record.length < 16 then .ok none
      else
        let start := signed (record.take 8)
        let length := signed (record.drop 8)
        if length ≤ 0 ∨ start < 0 then .ok none
        else if contents.length < start.toNat + length.toNat then
          .error (.documentOutOfStore document)
        else
          match (contents.slice start.toNat length.toNat).toText? with
          | some content => .ok (some content)
          | none => .error (.invalidDocument document)
  | _, _ => .ok none

end DocumentStore

end Concordance
