import Concordance.Posting.Postings
import Concordance.Record.Reader

/-!
# Reading batch files

A batch file is read unit by unit. After its last unit the checksum is compared,
so that all that was read is trusted only if the file is undamaged.
-/

namespace Concordance

/-- A batch file that is being read. -/
structure BatchSource where
  /-- Where the file lies, for messages. -/
  path : String
  reader : Reader
  /-- The number of units after the next one. -/
  remaining : Nat
  /-- The next unit and its list. -/
  next : Option (String × Postings) := none

namespace BatchSource

/-- Begin to read a file. -/
def ofBytes (path : String) (bytes : Bytes) : Except Failure BatchSource := do
  let (count, reader) ← Reader.takeUInt32 { rest := bytes }
  pure { path, reader, remaining := count.toNat }

/-- Read a unit and its list. -/
def takeList (reader : Reader) : Except Failure ((String × Postings) × Reader) := do
  let (unit, reader) ← reader.takeText
  let (count, reader) ← reader.takeUInt32
  let (words, reader) ← reader.takeWords count.toNat
  pure ((unit, words), reader)

/-- Read the next unit in place of the current one. After the last one the checksum must be
right. -/
def advance (source : BatchSource) : Except Failure BatchSource :=
  match source.remaining with
  | remaining + 1 => do
      let (next, reader) ← takeList source.reader
      pure { source with reader, remaining, next := some next }
  | 0 => do
      let (intact, reader) ← source.reader.verify
      if intact then pure { source with reader, next := none }
      else throw (.checksumMismatch source.path)

/-- The number of units still to be delivered. -/
def pending (source : BatchSource) : Nat :=
  source.remaining + if source.next.isSome then 1 else 0

/-- Reading on delivers one unit. -/
theorem pending_of_advance {source later : BatchSource} (hnext : source.next.isSome)
    (hread : source.advance = .ok later) : later.pending < source.pending := by
  unfold advance at hread
  split at hread
  · rename_i remaining hcount
    rcases htaken : takeList source.reader with failure | ⟨next, reader⟩
    · simp [htaken, bind, Except.bind] at hread
    · simp only [htaken, bind, Except.bind, pure, Except.pure, Except.ok.injEq] at hread
      subst hread
      simp [pending, hnext, hcount]
  · rename_i hcount
    rcases hverified : source.reader.verify with failure | ⟨intact, reader⟩
    · simp [hverified, bind, Except.bind] at hread
    · simp only [hverified, bind, Except.bind] at hread
      split at hread
      · simp only [pure, Except.pure, Except.ok.injEq] at hread
        subst hread
        simp [pending, hnext]
      · simp [throw, throwThe, MonadExceptOf.throw] at hread

end BatchSource

end Concordance
