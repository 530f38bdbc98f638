import Concordance.Storage.Disk

/-!
# Files of an index

The files that make up an index, and the names they have in its directory. While
an index is built there are batch files as well, which are numbered.
-/

namespace Concordance

/-- What a file of an index holds. -/
inductive IndexFile where
  | contents
  | places
  | directory
  | postings
  | lengths
  | statistics
  | commonTokens
deriving DecidableEq, Repr

namespace IndexFile

/-- The name of a file. -/
def name : IndexFile → String
  | contents => "documents.bin"
  | places => "doc_offsets.bin"
  | directory => "token_map.bin"
  | postings => "roaringish_packed.bin"
  | lengths => "doc_lengths.bin"
  | statistics => "index_stats.json"
  | commonTokens => "common_tokens.bin"

/-- The files of an index. -/
def all : List IndexFile :=
  [contents, places, directory, postings, lengths, statistics, commonTokens]

end IndexFile

/-- The name of a batch file. -/
def batchName (index : Nat) : String :=
  "batch_" ++ toString index ++ ".bin"

/-- Whether a file could be a batch file, by its name. -/
def isBatchName (name : String) : Bool :=
  "batch_".toList.isPrefixOf name.toList && ".bin".toList.isSuffixOf name.toList

end Concordance
