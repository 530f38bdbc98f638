import Concordance.Text.Case.Cased
import Concordance.Text.Case.Ignorable
import Concordance.Text.Case.LowerTable
import Concordance.Text.Whitespace

/-!
# Lower case

A text is brought to lower case character by character. A capital sigma at the
end of a word becomes a final sigma: one that follows a cased character and is
not followed by one, where ignorable characters in between do not count.
-/

namespace Concordance

/-- The lower-case form of a character outside any context. A capital I with a dot keeps its dot
as a mark of its own. -/
def lowerCharacter (c : Char) : List Char :=
  if c.toNat = 0x130 then ['i', Char.ofNat 0x307] else [simpleLower c]

/-- Whether the first character that is not ignorable has a case. -/
def meetsCased (chars : List Char) : Bool :=
  match chars.dropWhile isCaseIgnorable with
  | c :: _ => isCased c
  | [] => false

/-- The lower-case form of a capital sigma between the characters `before`, nearest first, and
`after`. -/
def lowerSigma (before after : List Char) : Char :=
  if meetsCased before && !meetsCased after then 'ς' else 'σ'

/-- The lower-case form of characters that follow the characters `before`, nearest first. -/
def lowerFrom (before : List Char) : List Char → List Char
  | [] => []
  | c :: rest =>
      if c = 'Σ' then lowerSigma before rest :: lowerFrom (c :: before) rest
      else lowerCharacter c ++ lowerFrom (c :: before) rest

/-- A text in lower case. -/
def toLowercase (text : String) : String :=
  String.ofList (lowerFrom [] text.toList)

/-- Characters without the white space around them. -/
def trimWhitespace (chars : List Char) : List Char :=
  ((chars.dropWhile isWhitespace).reverse.dropWhile isWhitespace).reverse

end Concordance
