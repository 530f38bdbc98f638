import Concordance.Storage.Appender
import Concordance.Storage.DocumentStore

/-!
# Writing document stores

The contents of documents are appended to one file as they come. Their places are
kept in memory and written to the other file when the store is finished.
-/

namespace Concordance

/-- A document store that is being written. -/
structure DocumentWriter where
  contents : Appender
  extents : DocumentExtents := {}

namespace DocumentWriter

/-- Open a store with an empty file of contents. -/
def create (name : String) : OnDisk DocumentWriter := do
  let contents ← Appender.create name
  pure { contents }

/-- Make sure that there is room to hold a content back. -/
def makeRoom (writer : DocumentWriter) (content : Bytes) : OnDisk DocumentWriter := do
  if writer.contents.fits content then pure writer
  else
    let contents ← writer.contents.flush
    pure { writer with contents }

/-- Append the content of a document for which there is room. -/
def append (writer : DocumentWriter) (document : DocumentId) (content : Bytes) :
    OnDisk DocumentWriter := do
  let extent : Extent := ⟨writer.contents.length, content.length⟩
  let contents ← writer.contents.accept content
  pure { contents, extents := writer.extents.set document extent }

/-- Add the content of a document. -/
def add (writer : DocumentWriter) (document : DocumentId) (content : String) :
    OnDisk DocumentWriter := do
  let writer ← writer.makeRoom (Bytes.ofText content)
  writer.append document (Bytes.ofText content)

/-- Write what is held back, and the places of the contents. -/
def finish (writer : DocumentWriter) (placesName : String) : OnDisk Unit := do
  let _ ← writer.contents.flush
  Disk.write placesName writer.extents.toBytes

end DocumentWriter

end Concordance
