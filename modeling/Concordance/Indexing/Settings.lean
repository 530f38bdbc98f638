import Concordance.Fusion.CommonTokens
import Concordance.Tokenizer.Words

/-!
# Settings for building an index
-/

namespace Concordance

/-- How an index is built. -/
structure IndexSettings where
  /-- The number of documents collected in memory before they are written. -/
  batchSize : Nat := 300000
  /-- How the common tokens are chosen. -/
  common : CommonChoice := .none
  /-- How documents are cut into tokens. Queries must be cut in the same way. -/
  tokenizer : Tokenizer := Tokenizer.words

namespace IndexSettings

/-- The settings with another batch size, of at least one document. -/
def withBatchSize (settings : IndexSettings) (size : Nat) : IndexSettings :=
  { settings with batchSize := max size 1 }

end IndexSettings

end Concordance
