import Concordance.Pattern.Parser
import Concordance.Tokenizer.Words

/-!
# Pattern tokenizers

The tokens are the matches of a pattern.
-/

namespace Concordance

namespace Tokenizer

/-- The pattern that is used if none is given: runs of word characters, and runs of characters that
are neither word characters nor white space. -/
def standardPattern : String := "[\\w]+|[^\\w\\s]+"

/-- The tokenizer of the matches of a pattern. -/
def patternMatches (text : String) : Except Failure Tokenizer :=
  match Pattern.parse? text with
  | some pattern =>
      .ok
        { name := "regex"
          normalize := foldCase
          tokenize := fun text => .ok (pattern.matchesOf text) }
  | none => .error .invalidPattern

end Tokenizer

end Concordance
