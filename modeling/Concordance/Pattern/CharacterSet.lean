import Concordance.Text.DecimalDigit
import Concordance.Text.Whitespace
import Concordance.Text.WordCharacter

/-!
# Character sets

The sets of characters that a place of a pattern may stand for.
-/

namespace Concordance

/-- A set of characters. -/
inductive CharacterSet where
  /-- The characters from one to another. -/
  | range (first last : Char)
  | word
  | digit
  | space
  | union (first second : CharacterSet)
  | complement (set : CharacterSet)
  | none
deriving DecidableEq, Repr

namespace CharacterSet

/-- Whether a character belongs to a set. -/
def contains (c : Char) : CharacterSet → Bool
  | range first last => first ≤ c && c ≤ last
  | word => isWordCharacter c
  | digit => isDecimalDigit c
  | space => isWhitespace c
  | union first second => first.contains c || second.contains c
  | complement set => !set.contains c
  | none => false

/-- The set of a single character. -/
def single (c : Char) : CharacterSet :=
  range c c

end CharacterSet

end Concordance
