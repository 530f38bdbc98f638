import Concordance.Failure

/-!
# Tokenizers

A tokenizer brings a text into a normal form and then cuts it into tokens. The
token at place `i` of the result is indexed at position `i`, for documents and
queries alike.
-/

namespace Concordance

/-- A way of cutting texts into tokens. -/
structure Tokenizer where
  name : String
  /-- The normal form of a text. -/
  normalize : String → String
  /-- The tokens of a text in normal form. -/
  tokenize : String → Except Failure (List String)

namespace Tokenizer

/-- The tokens of a text. -/
def tokens (tokenizer : Tokenizer) (text : String) : Except Failure (List String) :=
  tokenizer.tokenize (tokenizer.normalize text)

end Tokenizer

end Concordance
