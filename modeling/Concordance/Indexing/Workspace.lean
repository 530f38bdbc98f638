import Concordance.Indexing.Indexer
import Concordance.Storage.IndexFile

/-!
# Adding documents

An indexer works on a disk that may refuse attempts. Both together make up a
workspace. After a failure the indexer and the disk are left as they were when it
happened; nothing is undone.
-/

namespace Concordance

/-- An indexer together with the disk it works on. -/
structure Workspace where
  indexer : Indexer
  disk : Disk

/-- A computation of an indexer, which may fail and does not undo what it did before. -/
abbrev Indexing := ExceptT Failure (StateM Workspace)

namespace Indexing

/-- Use the disk. -/
def onDisk (action : OnDisk α) : Indexing α :=
  fun workspace =>
    let (result, disk) := action workspace.disk
    (result, { workspace with disk })

/-- The indexer as it is now. -/
def indexer : Indexing Indexer := do
  return (← get).indexer

/-- Change the indexer. -/
def change (f : Indexer → Indexer) : Indexing Unit :=
  modify fun workspace => { workspace with indexer := f workspace.indexer }

end Indexing

namespace Indexer

/-- Remove the files of an older index and of an unfinished one. -/
def clearDirectory : OnDisk Unit := do
  IndexFile.all.forM fun file => Disk.removeIfPresent file.name
  let names ← Disk.list
  (names.filter isBatchName).forM Disk.remove

/-- Begin a new index in the directory of a disk. -/
def create (path : String) (settings : IndexSettings) : OnDisk Indexer := do
  tryCatch Disk.createDirectory fun _ => throw (.directoryNotCreated path)
  clearDirectory
  let documents ← DocumentWriter.create IndexFile.contents.name
  pure { path, settings, common := commonAtFirst settings.common, documents := some documents }

/-- Fail unless the indexer takes documents. -/
def checkAccepting : Indexing Unit := do
  let indexer ← Indexing.indexer
  if indexer.phase ≠ .accepting then throw (.notAccepting indexer.phase)

/-- Add the content of a document to the store. -/
def storeContent (document : DocumentId) (content : String) : Indexing Unit := do
  let bytes := Bytes.ofText content
  match (← Indexing.indexer).documents with
  | none => pure ()
  | some documents =>
      let documents ← Indexing.onDisk (documents.makeRoom bytes)
      Indexing.change fun indexer => { indexer with documents := some documents }
      let documents ← Indexing.onDisk (documents.append document bytes)
      Indexing.change fun indexer => { indexer with documents := some documents }

/-- Write the batch to a file of its own, unless there is nothing in it. The posting lists leave the
batch before they are written. -/
def writeBatch : Indexing Unit := do
  Indexing.change chooseCommon
  let indexer ← Indexing.indexer
  let batch := indexer.batch
  if !batch.postings.isEmpty then
    Indexing.change fun indexer => { indexer with batch := { batch with postings := Table.empty } }
    let name := batchName indexer.batchFiles.length
    let file ← Indexing.onDisk (Disk.create name)
    let bytes ← batch.toBytes
    Indexing.onDisk (Disk.writeAt file 0 bytes)
    Indexing.change fun indexer =>
      { indexer with batch := {}, batchFiles := indexer.batchFiles ++ [name] }

/-- Add a document. Tokens beyond the last position are not indexed. -/
def addDocument (document : DocumentId) (content : String) : Indexing Unit := do
  checkAccepting
  let tokens ← (← Indexing.indexer).settings.tokenizer.tokens content
  let tokens := tokens.take Position.limit.toNat
  storeContent document content
  Indexing.change (account document tokens.length.toUInt32)
  Indexing.change (collect document tokens)
  let indexer ← Indexing.indexer
  if indexer.settings.batchSize ≤ indexer.pending then writeBatch

end Indexer

end Concordance
