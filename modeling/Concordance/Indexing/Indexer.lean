import Concordance.Indexing.Batch
import Concordance.Indexing.Settings
import Concordance.Storage.DocumentLengths
import Concordance.Storage.DocumentWriter
import Concordance.Storage.IndexStatistics

/-!
# Indexers

An indexer takes documents one by one. Their contents go to the document store at
once, and their tokens are collected in a batch, which is written to a file when it
holds enough documents.

If the common tokens are to be chosen by frequency, they are chosen from the
documents of the first batch. Until then the tokens of these documents are kept as
a sample.

This module has what an indexer knows, and how a document changes that.
-/

namespace Concordance

/-- An index that is being built. -/
structure Indexer where
  /-- Where the directory of the index lies, for messages. -/
  path : String
  settings : IndexSettings
  phase : Phase := .accepting
  batch : Batch := {}
  /-- The names of the batch files written so far. -/
  batchFiles : List String := []
  /-- The common tokens, once they are known. -/
  common : Option CommonTokens := none
  /-- The documents added while the common tokens are not known. -/
  sample : List (DocumentId × List String) := []
  /-- The document store, until it is finished. -/
  documents : Option DocumentWriter := none
  /-- The number of tokens of each document. -/
  lengths : DocumentLengths := {}
  /-- The documents added so far. -/
  known : List DocumentId := []
  statistics : IndexStatistics := {}

namespace Indexer

/-- The number of documents that have not been written to a batch file. -/
def pending (indexer : Indexer) : Nat :=
  indexer.batch.documents + indexer.sample.length

/-- How often each token occurs in some documents. -/
def frequencies (documents : List (DocumentId × List String)) : Table Nat :=
  (documents.flatMap (·.2)).foldl
    (fun table token => table.alter token fun count => count.getD 0 + 1) Table.empty

/-- Take a document and the number of its tokens into the statistics. A document that is added
again keeps its last length and is counted once. -/
def account (document : DocumentId) (length : UInt32) (indexer : Indexer) : Indexer :=
  let statistics := indexer.statistics
  let statistics :=
    if indexer.known.contains document then
      { statistics with tokens := statistics.tokens - (indexer.lengths.get document).toUInt64 }
    else { statistics with documents := statistics.documents + 1 }
  { indexer with
    known :=
      if indexer.known.contains document then indexer.known else document :: indexer.known
    lengths := indexer.lengths.set document length
    statistics := { statistics with tokens := statistics.tokens + length.toUInt64 } }

/-- Take the tokens of a document into the batch, or into the sample while the common tokens are
not known. -/
def collect (document : DocumentId) (tokens : List String) (indexer : Indexer) : Indexer :=
  match indexer.common with
  | some common => { indexer with batch := indexer.batch.addDocument common document tokens }
  | none => { indexer with sample := indexer.sample ++ [(document, tokens)] }

/-- Choose the common tokens if they are not known, and take the sample into the batch. -/
def chooseCommon (indexer : Indexer) : Indexer :=
  match indexer.common with
  | some _ => indexer
  | none =>
      let common := CommonTokens.select indexer.settings.common (frequencies indexer.sample)
      { indexer with
        batch := indexer.sample.foldl
          (fun batch (document, tokens) => batch.addDocument common document tokens) indexer.batch
        sample := []
        common := some common }

/-- The common tokens that are known before any document is. -/
def commonAtFirst : CommonChoice → Option CommonTokens
  | .none => some (CommonTokens.select .none Table.empty)
  | .list tokens => some (CommonTokens.select (.list tokens) Table.empty)
  | .most _ => none
  | .fraction _ => none

end Indexer

end Concordance
