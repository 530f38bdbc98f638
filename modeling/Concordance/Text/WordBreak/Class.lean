import Concordance.Text.WordBreak.Extenders
import Concordance.Text.WordBreak.Letters

/-!
# Word-break classes

The classes of characters on which the boundaries between words depend.
-/

namespace Concordance

/-- The word-break class of a character. -/
inductive WordBreakClass where
  | carriageReturn
  | lineFeed
  | newline
  | extend
  | joiner
  | regionalIndicator
  | format
  | katakana
  | hebrewLetter
  | letter
  | singleQuote
  | doubleQuote
  | midNumberLetter
  | midLetter
  | midNumber
  | numeric
  /-- A character that connects words, such as a low line. -/
  | connector
  | space
  | other
deriving DecidableEq, Repr, Inhabited

/-- The ranges of the characters of numbers. -/
def numericRanges : CodeRanges := #[
  (0x30, 0x39), (0x600, 0x605), (0x660, 0x669), (0x66B, 0x66B), (0x6DD, 0x6DD), (0x6F0, 0x6F9),
  (0x7C0, 0x7C9), (0x890, 0x891), (0x8E2, 0x8E2), (0x966, 0x96F), (0x9E6, 0x9EF), (0xA66, 0xA6F),
  (0xAE6, 0xAEF), (0xB66, 0xB6F), (0xBE6, 0xBEF), (0xC66, 0xC6F), (0xCE6, 0xCEF), (0xD66, 0xD6F),
  (0xDE6, 0xDEF), (0xE50, 0xE59), (0xED0, 0xED9), (0xF20, 0xF29), (0x1040, 0x1049),
  (0x1090, 0x1099), (0x17E0, 0x17E9), (0x1810, 0x1819), (0x1946, 0x194F), (0x19D0, 0x19D9),
  (0x1A80, 0x1A89), (0x1A90, 0x1A99), (0x1B50, 0x1B59), (0x1BB0, 0x1BB9), (0x1C40, 0x1C49),
  (0x1C50, 0x1C59), (0xA620, 0xA629), (0xA8D0, 0xA8D9), (0xA900, 0xA909), (0xA9D0, 0xA9D9),
  (0xA9F0, 0xA9F9), (0xAA50, 0xAA59), (0xABF0, 0xABF9), (0xFF10, 0xFF19), (0x104A0, 0x104A9),
  (0x10D30, 0x10D39), (0x10D40, 0x10D49), (0x11066, 0x1106F), (0x110BD, 0x110BD),
  (0x110CD, 0x110CD), (0x110F0, 0x110F9), (0x11136, 0x1113F), (0x111D0, 0x111D9),
  (0x112F0, 0x112F9), (0x11450, 0x11459), (0x114D0, 0x114D9), (0x11650, 0x11659),
  (0x116C0, 0x116C9), (0x116D0, 0x116E3), (0x11730, 0x11739), (0x118E0, 0x118E9),
  (0x11950, 0x11959), (0x11BF0, 0x11BF9), (0x11C50, 0x11C59), (0x11D50, 0x11D59),
  (0x11DA0, 0x11DA9), (0x11DE0, 0x11DE9), (0x11F50, 0x11F59), (0x16130, 0x16139),
  (0x16A60, 0x16A69), (0x16AC0, 0x16AC9), (0x16B50, 0x16B59), (0x16D70, 0x16D79),
  (0x1CCF0, 0x1CCF9), (0x1D7CE, 0x1D7FF), (0x1E140, 0x1E149), (0x1E2F0, 0x1E2F9),
  (0x1E4F0, 0x1E4F9), (0x1E5F1, 0x1E5FA), (0x1E950, 0x1E959), (0x1FBF0, 0x1FBF9)]

/-- The ranges of the classes with few characters. -/
def wordBreakRanges : Array (Nat × Nat × WordBreakClass) := #[
  (0xA, 0xA, .lineFeed), (0xB, 0xC, .newline), (0xD, 0xD, .carriageReturn), (0x20, 0x20, .space),
  (0x22, 0x22, .doubleQuote), (0x27, 0x27, .singleQuote), (0x2C, 0x2C, .midNumber),
  (0x2E, 0x2E, .midNumberLetter), (0x3A, 0x3A, .midLetter), (0x3B, 0x3B, .midNumber),
  (0x5F, 0x5F, .connector), (0x85, 0x85, .newline), (0xAD, 0xAD, .format),
  (0xB7, 0xB7, .midLetter), (0x37E, 0x37E, .midNumber), (0x387, 0x387, .midLetter),
  (0x55F, 0x55F, .midLetter), (0x589, 0x589, .midNumber), (0x5D0, 0x5EA, .hebrewLetter),
  (0x5EF, 0x5F2, .hebrewLetter), (0x5F4, 0x5F4, .midLetter), (0x60C, 0x60D, .midNumber),
  (0x61C, 0x61C, .format), (0x66C, 0x66C, .midNumber), (0x7F8, 0x7F8, .midNumber),
  (0x1680, 0x1680, .space), (0x180E, 0x180E, .format), (0x2000, 0x2006, .space),
  (0x2008, 0x200A, .space), (0x200D, 0x200D, .joiner), (0x200E, 0x200F, .format),
  (0x2018, 0x2019, .midNumberLetter), (0x2024, 0x2024, .midNumberLetter),
  (0x2027, 0x2027, .midLetter), (0x2028, 0x2029, .newline), (0x202A, 0x202E, .format),
  (0x202F, 0x202F, .connector), (0x203F, 0x2040, .connector), (0x2044, 0x2044, .midNumber),
  (0x2054, 0x2054, .connector), (0x205F, 0x205F, .space), (0x2060, 0x2064, .format),
  (0x2066, 0x206F, .format), (0x3000, 0x3000, .space), (0x3031, 0x3035, .katakana),
  (0x309B, 0x309C, .katakana), (0x30A0, 0x30FA, .katakana), (0x30FC, 0x30FF, .katakana),
  (0x31F0, 0x31FF, .katakana), (0x32D0, 0x32FE, .katakana), (0x3300, 0x3357, .katakana),
  (0xFB1D, 0xFB1D, .hebrewLetter), (0xFB1F, 0xFB28, .hebrewLetter),
  (0xFB2A, 0xFB36, .hebrewLetter), (0xFB38, 0xFB3C, .hebrewLetter),
  (0xFB3E, 0xFB3E, .hebrewLetter), (0xFB40, 0xFB41, .hebrewLetter),
  (0xFB43, 0xFB44, .hebrewLetter), (0xFB46, 0xFB4F, .hebrewLetter), (0xFE13, 0xFE13, .midLetter),
  (0xFE33, 0xFE34, .connector), (0xFE4D, 0xFE4F, .connector), (0xFE50, 0xFE50, .midNumber),
  (0xFE52, 0xFE52, .midNumberLetter), (0xFE54, 0xFE54, .midNumber), (0xFE55, 0xFE55, .midLetter),
  (0xFEFF, 0xFEFF, .format), (0xFF07, 0xFF07, .midNumberLetter), (0xFF0C, 0xFF0C, .midNumber),
  (0xFF0E, 0xFF0E, .midNumberLetter), (0xFF1A, 0xFF1A, .midLetter), (0xFF1B, 0xFF1B, .midNumber),
  (0xFF3F, 0xFF3F, .connector), (0xFF66, 0xFF9D, .katakana), (0xFFF9, 0xFFFB, .format),
  (0x13430, 0x1343F, .format), (0x1AFF0, 0x1AFF3, .katakana), (0x1AFF5, 0x1AFFB, .katakana),
  (0x1AFFD, 0x1AFFE, .katakana), (0x1B000, 0x1B000, .katakana), (0x1B120, 0x1B122, .katakana),
  (0x1B155, 0x1B155, .katakana), (0x1B164, 0x1B167, .katakana), (0x1BCA0, 0x1BCA3, .format),
  (0x1D173, 0x1D17A, .format), (0x1F1E6, 0x1F1FF, .regionalIndicator), (0xE0001, 0xE0001, .format)]

/-- The word-break class of a character. -/
def wordBreakClass (c : Char) : WordBreakClass :=
  match CodeRanges.find? (·.1) (·.2.1) wordBreakRanges c.toNat with
  | some (_, _, found) => found
  | none =>
      if wordLetterRanges.holds c then .letter
      else if extenderRanges.holds c then .extend
      else if numericRanges.holds c then .numeric
      else .other

end Concordance
