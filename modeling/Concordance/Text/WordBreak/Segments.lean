import Concordance.Text.WordBreak.Class
import Concordance.Text.WordBreak.Pictographic

/-!
# Word segments

A text falls into segments at its word boundaries: words, numbers, runs of
spaces, and single other characters, each together with the extending characters
that follow it. A segment is read from its first character on. What has been read
decides whether the next character still belongs to it (`Reading`). Punctuation
inside words and numbers belongs to the segment only if the word or the number
goes on behind it, so the reader may have to return to where a bridge of this
kind began.
-/

namespace Concordance

namespace WordBreak

/-- What has to stand behind punctuation for the segment to go on. -/
inductive Bridge where
  /-- A letter has to follow. -/
  | letter
  /-- A Hebrew letter has to follow. -/
  | hebrewLetter
  /-- A number has to follow. -/
  | number
  /-- A letter may follow; the punctuation belongs to the segment in any case. -/
  | quoted
  /-- Nothing may follow. -/
  | closed
deriving DecidableEq, Repr

/-- What the segment read so far ends with, extending characters aside. -/
inductive Reading where
  | letter
  | hebrewLetter
  | number
  | katakana
  | connector
  /-- The first half of a flag. -/
  | halfFlag
  | flag
  | joiner
  | spaces
  /-- A pictograph that was joined to what stands before it. -/
  | joinedPicture
  | bridge (expected : Bridge)
deriving DecidableEq, Repr

/-- Whether characters of this class belong to the character before them. -/
def attaches (found : WordBreakClass) : Bool :=
  found = .extend || found = .format || found = .joiner

/-- How reading goes on with a character. -/
inductive Move where
  /-- The character belongs to the segment. -/
  | take (reading : Reading)
  /-- The character begins a bridge. -/
  | begin (expected : Bridge)
  /-- The character does not belong to the segment. -/
  | stop
  /-- The bridge leads nowhere, and the segment ends before it. -/
  | giveUp
deriving DecidableEq, Repr

/-- How reading goes on after a letter. -/
def afterLetter (hebrew : Bool) : WordBreakClass → Move
  | .letter => .take .letter
  | .hebrewLetter => .take .hebrewLetter
  | .numeric => .take .number
  | .connector => .take .connector
  | .doubleQuote => if hebrew then .begin .hebrewLetter else .stop
  | .singleQuote => if hebrew then .take (.bridge .quoted) else .begin .letter
  | .midLetter | .midNumberLetter => .begin .letter
  | _ => .stop

/-- How reading goes on after a number. -/
def afterNumber : WordBreakClass → Move
  | .numeric => .take .number
  | .letter => .take .letter
  | .hebrewLetter => .take .hebrewLetter
  | .connector => .take .connector
  | .midNumber | .midNumberLetter | .singleQuote => .begin .number
  | _ => .stop

/-- How reading goes on after a connector. -/
def afterConnector : WordBreakClass → Move
  | .connector => .take .connector
  | .letter => .take .letter
  | .hebrewLetter => .take .hebrewLetter
  | .numeric => .take .number
  | .katakana => .take .katakana
  | _ => .stop

/-- How reading goes on behind a bridge. -/
def afterBridge : Bridge → WordBreakClass → Move
  | .number, .numeric => .take .number
  | .letter, .letter => .take .letter
  | .quoted, .letter => .take .letter
  | .letter, .hebrewLetter => .take .hebrewLetter
  | .quoted, .hebrewLetter => .take .hebrewLetter
  | .hebrewLetter, .hebrewLetter => .take .hebrewLetter
  | .closed, _ => .stop
  | .quoted, _ => .stop
  | _, _ => .giveUp

/-- How reading goes on with a character that does not attach to the one before it. `attached` says
whether the segment holds attached characters. -/
def move (attached : Bool) : Reading → WordBreakClass → Move
  | .letter, found => afterLetter false found
  | .hebrewLetter, found => afterLetter true found
  | .number, found => afterNumber found
  | .katakana, .katakana => .take .katakana
  | .katakana, .connector => .take .connector
  | .connector, found => afterConnector found
  | .halfFlag, .regionalIndicator => .take .flag
  | .spaces, .space => if attached then .stop else .take .spaces
  | .bridge expected, found => afterBridge expected found
  | _, _ => .stop

/-- Where the segment ends if the bridge that it may be on leads nowhere. `taken` characters have
been read, `safe` of them before the bridge. -/
def retreat (reading : Reading) (taken safe : Nat) : Nat :=
  match reading with
  | .bridge .letter | .bridge .hebrewLetter | .bridge .number => safe
  | _ => taken

/-- Read on. `joined` says whether the last character was a joiner, `attached` whether there were
attached characters, `taken` how many characters were read after the first, and `safe` how many
of them before the last bridge. The result is the number of characters after the first that
belong to the segment. -/
def readOn (reading : Reading) (joined attached : Bool) (taken safe : Nat) : List Char → Nat
  | [] => retreat reading taken safe
  | c :: rest =>
      let found := wordBreakClass c
      if attaches found then readOn reading (found = .joiner) true (taken + 1) safe rest
      else if joined && isPictograph c then
        readOn .joinedPicture false attached (taken + 1) safe rest
      else
        match move attached reading found with
        | .take next => readOn next false attached (taken + 1) safe rest
        | .begin expected => readOn (.bridge expected) false attached (taken + 1) taken rest
        | .stop => taken
        | .giveUp => safe

/-- How to read on after a first character that does not stand alone. -/
def firstReading? : WordBreakClass → Option Reading
  | .letter => some .letter
  | .hebrewLetter => some .hebrewLetter
  | .numeric => some .number
  | .katakana => some .katakana
  | .connector => some .connector
  | .regionalIndicator => some .halfFlag
  | .joiner => some .joiner
  | .space => some .spaces
  | _ => none

/-- The number of characters that belong to the segment of a first character, after it. -/
def following (first : Char) (rest : List Char) : Nat :=
  let found := wordBreakClass first
  match found with
  | .carriageReturn =>
      match rest with
      | next :: _ => if wordBreakClass next = .lineFeed then 1 else 0
      | [] => 0
  | .lineFeed | .newline => 0
  | _ =>
      match firstReading? found with
      | some reading => readOn reading (found = .joiner) false 0 0 rest
      | none =>
          match rest with
          | next :: _ =>
              if attaches (wordBreakClass next) then readOn (.bridge .closed) false true 0 0 rest
              else 0
          | [] => 0

/-- The segments of a text. -/
def segments : List Char → List (List Char)
  | [] => []
  | first :: rest =>
      let count := following first rest
      (first :: rest.take count) :: segments (rest.drop count)
termination_by chars => chars.length
decreasing_by simp only [List.length_drop, List.length_cons]; omega

end WordBreak

end Concordance
