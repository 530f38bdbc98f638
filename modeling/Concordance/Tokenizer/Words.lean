import Concordance.Text.Case.Lowercase
import Concordance.Text.WordBreak.Segments
import Concordance.Tokenizer.Tokenizer

/-!
# Word tokenizer

The tokens are the segments between word boundaries, except for those that
consist of white space. Punctuation makes tokens of its own.
-/

namespace Concordance

namespace Tokenizer

/-- Without white space around it, in lower case. -/
def foldCase (text : String) : String :=
  toLowercase (String.ofList (trimWhitespace text.toList))

/-- The segments of a text that are not white space. -/
def wordsOf (text : String) : List String :=
  ((WordBreak.segments text.toList).filter fun segment => !segment.all isWhitespace).map
    String.ofList

/-- The tokenizer that cuts at word boundaries. -/
def words : Tokenizer where
  name := "unicode_word"
  normalize := foldCase
  tokenize text := .ok (wordsOf text)

end Tokenizer

end Concordance
