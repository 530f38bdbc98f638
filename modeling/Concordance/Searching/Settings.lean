import Concordance.Tokenizer.Words

/-!
# Settings for searching an index
-/

namespace Concordance

/-- How an index is searched. -/
structure SearchSettings where
  /-- Whether lists are intersected one word at a time. -/
  forceScalar : Bool := false
  /-- How queries are cut into tokens. Documents must have been cut in the same way. -/
  tokenizer : Tokenizer := Tokenizer.words

end Concordance
