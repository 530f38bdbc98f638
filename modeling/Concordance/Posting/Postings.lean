import Concordance.Bytes
import Concordance.Posting.Word

/-!
# Posting lists

A posting list is a list of posting words. It is *normalized* when the keys of
its words ascend strictly, so that each group of positions has one word and the
words of a document stand together. `normalize` brings any list into this form
without changing the positions it stands for.

The documents of a list are read off the runs of words with the same document,
alone (`documents`), with the number of set bits in each run (`frequencies`), or
merely counted (`documentCount`).
-/

namespace Concordance

/-- A list of posting words. -/
abbrev Postings := List Word

namespace Postings

/-- The meaning of a list: the addresses of the set bits of its words, in order. -/
def addresses (words : Postings) : List Nat :=
  words.flatMap Word.addresses

/-- Add one position to the last word of `opened` if it belongs to the same group, and open a new
word for it otherwise. The words are held last first. -/
def record (document : DocumentId) (opened : Postings) (position : Position) : Postings :=
  match opened with
  | last :: earlier =>
      if Word.key last = Word.ofDocument document ||| Word.ofGroup position.group then
        (last ||| Word.ofOffset position.offset) :: earlier
      else Word.ofPosition document position :: last :: earlier
  | [] => [Word.ofPosition document position]

/-- The words of one document's positions. Positions of one group that follow each other share a
word. -/
def ofPositions (document : DocumentId) (positions : List Position) : Postings :=
  (positions.foldl (record document) []).reverse

/-- Append the positions of one document. The first of them opens a new word even if the last word
of the list is of the same group. -/
def push (words : Postings) (document : DocumentId) (positions : List Position) : Postings :=
  words ++ ofPositions document positions

/-- The words stored in little-endian bytes, of which an incomplete last word is dropped. -/
def ofBytes (bytes : Bytes) : Postings :=
  Bytes.toWords bytes

/-- Keep one element of each run of equal neighbours. -/
def collapse [DecidableEq α] : List α → List α
  | first :: second :: rest =>
      if first = second then collapse (second :: rest) else first :: collapse (second :: rest)
  | short => short

/-- The documents of the list, one for each run of words of one document. -/
def documents (words : Postings) : List DocumentId :=
  collapse (words.map Word.document)

/-- The documents of the list, each with the number of set bits in its run of words. -/
def frequencies : Postings → List (DocumentId × Nat)
  | [] => []
  | word :: rest =>
      match frequencies rest with
      | (document, frequency) :: later =>
          if word.document = document then (document, word.count + frequency) :: later
          else (word.document, word.count) :: (document, frequency) :: later
      | [] => [(word.document, word.count)]

/-- Count the runs of words of one document that follow a word of document `last`. -/
def countRuns (last : Option DocumentId) : Postings → Nat
  | [] => 0
  | word :: rest =>
      if last = some word.document then countRuns last rest
      else countRuns (some word.document) rest + 1

/-- The number of documents of the list. -/
def documentCount (words : Postings) : Nat :=
  countRuns none words

/-- The number of bytes of the list in a file. -/
def byteSize (words : Postings) : Nat :=
  8 * words.length

/-- Whether keys ascend strictly. -/
def isNormalized : Postings → Bool
  | first :: second :: rest => first.key < second.key && isNormalized (second :: rest)
  | _ => true

/-- Unite the bitmaps of neighbours with the same key. -/
def unite : Postings → Postings
  | first :: second :: rest =>
      if first.key = second.key then unite ((first ||| second) :: rest)
      else first :: unite (second :: rest)
  | short => short
termination_by words => words.length

/-- Order the words by key and unite the bitmaps of each key. A list that is normalized already is
left as it is. -/
def normalize (words : Postings) : Postings :=
  if isNormalized words then words
  else unite (words.mergeSort fun left right => left.key ≤ right.key)

/-- Keep the words with at least one position. -/
def dropEmpty (words : Postings) : Postings :=
  words.filter fun word => word.bitmap ≠ 0

/-- The text of a bitmap: sixteen binary digits, the highest place first. -/
def bitmapText (bitmap : UInt16) : String :=
  String.ofList ((List.range 16).reverse.map fun offset =>
    if bitmap.toNat.testBit offset then '1' else '0')

/-- The text of a word: its document, its group and the digits of its bitmap. -/
def wordText (word : Word) : String :=
  "(" ++ toString word.document ++ ", " ++ toString word.group ++ ", " ++
    bitmapText word.bitmap ++ ")"

/-- The text of a list: the quoted texts of its words in brackets. -/
def text (words : Postings) : String :=
  "[" ++ ", ".intercalate (words.map fun word => "\"" ++ wordText word ++ "\"") ++ "]"

end Postings

end Concordance
