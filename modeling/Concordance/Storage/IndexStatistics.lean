import Concordance.Bytes
import Concordance.Json.Fields
import Concordance.Json.Parser

/-!
# Index statistics

The number of documents and of tokens of an index, kept in a small JSON file. A
file that is missing or damaged stands for an empty index.
-/

namespace Concordance

/-- The totals of an index. -/
structure IndexStatistics where
  documents : UInt32 := 0
  tokens : UInt64 := 0
deriving DecidableEq, Repr

namespace IndexStatistics

/-- The mean number of tokens of a document, zero for an empty index. -/
def averageLength (statistics : IndexStatistics) : Float32 :=
  if statistics.documents = 0 then 0.0
  else statistics.tokens.toFloat32 / statistics.documents.toFloat32

/-- The text of the file. -/
def text (statistics : IndexStatistics) : String :=
  "\x7b\n  \"TotalDocs\": " ++ toString statistics.documents ++
    ",\n  \"TotalTokens\": " ++ toString statistics.tokens ++ "\n\x7d"

/-- The statistics that a JSON value describes. -/
def ofJson? (value : JsonValue) : Option IndexStatistics :=
  match value.fields? ["TotalDocs", "TotalTokens"] with
  | some [documents, tokens] => do
      let documents ← documents.toNat? UInt32.size
      let tokens ← tokens.toNat? UInt64.size
      pure ⟨documents.toUInt32, tokens.toUInt64⟩
  | _ => none

/-- The statistics of a file. -/
def ofFile (file : Option Bytes) : IndexStatistics :=
  (do ofJson? (← JsonValue.parse? (← (← file).toText?))).getD {}

end IndexStatistics

end Concordance
