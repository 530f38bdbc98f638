import Concordance.Fusion.CommonTokens
import Concordance.Intersection.Intersect
import Concordance.Query.Parser
import Concordance.Searching.Settings
import Concordance.Storage.DocumentLengths
import Concordance.Storage.DocumentStore
import Concordance.Storage.IndexFile
import Concordance.Storage.IndexStatistics
import Concordance.Storage.PostingsFile
import Concordance.Tally

/-!
# Searchers

A searcher holds what the files of an index said when it was opened. Files that are
missing count as empty; only the directory itself must exist, and its tables of
tokens must be legible.
-/

namespace Concordance

/-- An index that is open for searching. -/
structure Searcher where
  settings : SearchSettings
  directory : TokenDirectory
  postingsFile : PostingsFile
  lengths : DocumentLengths
  documents : DocumentStore
  statistics : IndexStatistics
  common : CommonTokens

/-- A search, which counts its steps and may fail. -/
abbrev Searching := ExceptT Failure Counted

namespace Searcher

/-- Open the index in the directory of a disk. -/
def ofDisk (disk : Disk) (path : String) (settings : SearchSettings) : Except Failure Searcher :=
  if disk.present then do
    let file := fun (file : IndexFile) => disk.file? file.name
    let directory ← TokenDirectory.ofFile (file .directory)
    let common ← CommonTokens.ofFile (file .commonTokens)
    pure
      { settings
        directory
        postingsFile := PostingsFile.ofFile (file .postings)
        lengths := DocumentLengths.ofFile (file .lengths)
        documents := DocumentStore.ofFiles (file .contents) (file .places)
        statistics := IndexStatistics.ofFile (file .statistics)
        common }
  else throw (.directoryMissing path)

/-- The posting list of a unit, if it is indexed. -/
def postings (searcher : Searcher) (unit : String) : Option Postings :=
  (searcher.directory.find? unit).map searcher.postingsFile.read

/-- The number of words of the list of a unit, if it is indexed. -/
def wordCount (searcher : Searcher) (unit : String) : Option Nat :=
  (searcher.directory.find? unit).map TokenEntry.wordCount

/-- The number of documents with a unit. -/
def documentFrequency (searcher : Searcher) (unit : String) : Nat :=
  ((searcher.postings unit).map Postings.documentCount).getD 0

/-- The single tokens of the index. -/
def vocabulary (searcher : Searcher) : Vocabulary :=
  Vocabulary.ofList (searcher.directory.keys.filter fun token => !token.toList.contains ' ')

/-- How query texts are read. -/
def parser (searcher : Searcher) : QueryParser :=
  { tokenizer := searcher.settings.tokenizer, vocabulary := some searcher.vocabulary }

/-- The positions of `right` that stand `length` positions after a position of `left`. -/
def intersect (searcher : Searcher) (left right : Postings) (length : UInt32) : Counted Postings :=
  Postings.intersect (Strategy.preferred searcher.settings.forceScalar) left right length

end Searcher

end Concordance
