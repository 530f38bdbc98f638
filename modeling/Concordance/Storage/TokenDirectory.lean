import Concordance.Record.Reader
import Concordance.Record.Writer
import Concordance.Table

/-!
# Token directories

A token directory says where in the postings file each token's list lies. Its
file starts with the number of entries; an entry is the token, the place and the
length of its list in bytes, and the number of documents it occurs in. Entries
are stored in ascending order of their tokens. A directory whose file ends early
consists of the entries that are complete.
-/

namespace Concordance

/-- Where a posting list lies. -/
structure TokenEntry where
  /-- The place of the list's first byte. -/
  start : Nat
  /-- The number of bytes of the list. -/
  length : Nat
  /-- The number of documents of the list, in 32 bits. -/
  documents : UInt32
deriving DecidableEq, Repr

/-- The number of words of the list. -/
def TokenEntry.wordCount (entry : TokenEntry) : Nat :=
  entry.length / 8

/-- The places of the posting lists of an index, by token. -/
abbrev TokenDirectory := Table TokenEntry

namespace TokenDirectory

/-- The records of an entry. -/
def entryRecords (token : String) (entry : TokenEntry) : List Record :=
  [.text token, .int64 entry.start.toUInt64.toInt64, .int64 entry.length.toUInt64.toInt64,
    .int32 entry.documents.toInt32]

/-- The file of a directory. -/
def toBytes (directory : TokenDirectory) : Except Failure Bytes :=
  if directory.size < 0x80000000 then do
    let writer ← Writer.put {} (.int32 directory.size.toUInt32.toInt32)
    let writer ← directory.entries.foldlM
      (fun writer (token, entry) => writer.putAll (entryRecords token entry)) writer
    pure writer.toBytes
  else throw .tooManyTokens

/-- Take one entry. Negative numbers count as zero. -/
def takeEntry (reader : Reader) : Except Failure ((String × TokenEntry) × Reader) := do
  let (token, reader) ← reader.takeText
  let (start, reader) ← reader.takeInt64
  let (length, reader) ← reader.takeInt64
  let (documents, reader) ← reader.takeInt32
  pure ((token, ⟨start.toInt.toNat, length.toInt.toNat, .ofNat documents.toInt.toNat⟩), reader)

/-- Add at most `count` entries to a directory, until the input ends. -/
def takeEntries (directory : TokenDirectory) (reader : Reader) :
    (count : Nat) → Except Failure TokenDirectory
  | 0 => .ok directory
  | count + 1 =>
      match takeEntry reader with
      | .ok ((token, entry), reader) => takeEntries (directory.insert token entry) reader count
      | .error failure => if failure.isTruncation then .ok directory else .error failure

/-- The directory of a file, of which as much is read as is there. A missing file is an empty
directory. -/
def ofFile : Option Bytes → Except Failure TokenDirectory
  | none => .ok Table.empty
  | some bytes =>
      match Reader.takeInt32 ⟨bytes, 0, {}⟩ with
      | .ok (count, reader) => takeEntries Table.empty reader count.toInt.toNat
      | .error failure => if failure.isTruncation then .ok Table.empty else .error failure

end TokenDirectory

end Concordance
