import Concordance.Indexing.Merge
import Concordance.Indexing.Workspace

/-!
# Committing an index

When all documents have been added, the index is committed: the last batch is
written, the batch files are merged into the postings file, and the remaining files
of the index are written. After a failure the indexer takes no more documents.
-/

namespace Concordance

namespace Indexer

/-- Begin to read the batch files. -/
def openBatches (path : String) (names : List String) : OnDisk (List BatchSource) := do
  let sources ← names.mapM fun name => do
    let bytes ← Disk.read name
    BatchSource.ofBytes (path ++ "/" ++ name) bytes
  sources.mapM fun source => source.advance

/-- Merge the batch files into the postings file. -/
def mergeBatches (path : String) (names : List String) :
    OnDisk (TokenDirectory × MergeSummary) := do
  let sources ← openBatches path names
  let file ← Disk.create IndexFile.postings.name
  let outcome := MergeOutcome.ofSources sources
  Disk.writeAt file 0 outcome.merged.writer.toBytes
  match outcome.failure with
  | some failure => throw failure
  | none => pure (outcome.merged.directory, outcome.merged.summary)

/-- Write the last batch, merge all batches and write the other files of the index. -/
def finish : Indexing Unit := do
  writeBatch
  let indexer ← Indexing.indexer
  Indexing.change fun indexer => { indexer with common := none }
  let (directory, _) ← Indexing.onDisk (mergeBatches indexer.path indexer.batchFiles)
  let directoryBytes ← directory.toBytes
  Indexing.onDisk (Disk.write IndexFile.directory.name directoryBytes)
  Indexing.change fun indexer => { indexer with batchFiles := [] }
  indexer.batchFiles.forM fun name => Indexing.onDisk (Disk.remove name)
  Indexing.onDisk (Disk.write IndexFile.lengths.name indexer.lengths.toBytes)
  match indexer.documents with
  | none => pure ()
  | some documents =>
      Indexing.change fun indexer => { indexer with documents := none }
      Indexing.onDisk (documents.finish IndexFile.places.name)
  Indexing.onDisk
    (Disk.write IndexFile.statistics.name (Bytes.ofText indexer.statistics.text))
  let commonBytes ← (indexer.common.getD CommonTokens.empty).toBytes
  Indexing.onDisk (Disk.write IndexFile.commonTokens.name commonBytes)

/-- Commit the index. After a failure the indexer takes no more documents. -/
def commit : Indexing Unit := do
  checkAccepting
  Indexing.change fun indexer => { indexer with phase := .merging }
  finish
  Indexing.change fun indexer => { indexer with phase := .closed }

/-- Add documents and commit the index. Yields the number of documents. -/
def index (documents : List (DocumentId × String)) : Indexing Nat := do
  documents.forM fun (document, content) => addDocument document content
  commit
  pure documents.length

/-- Give an indexer up, whether or not it was committed. What its store holds back is written. -/
def discard (indexer : Indexer) : OnDisk Unit :=
  match indexer.documents with
  | none => pure ()
  | some documents => do
      let _ ← documents.contents.flush

end Indexer

end Concordance
