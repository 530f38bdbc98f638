import Concordance.Record.Checksum
import Concordance.Record.Record

/-!
# Reading records

A reader takes records off the front of some bytes and keeps the number and the
checksum of what it has taken. It fails with `Failure.endOfInput` where the bytes
end inside a record.
-/

namespace Concordance

/-- Bytes still to be read, and what is known of those already read. -/
structure Reader where
  /-- The bytes still to be read. -/
  rest : Bytes
  /-- The number of bytes read. -/
  position : Nat := 0
  /-- The checksum of the bytes read. -/
  checksum : Checksum := {}
deriving Repr

/-- Whether a failure means that the input ended inside a record. -/
def Failure.isTruncation : Failure → Bool
  | .endOfInput => true
  | _ => false

namespace Reader

/-- Account for bytes that were taken off the front. -/
def advance (reader : Reader) (taken rest : Bytes) : Reader :=
  { rest
    position := reader.position + taken.length
    checksum := reader.checksum.add taken }

/-- Take bytes. -/
def takeBytes (reader : Reader) (count : Nat) : Except Failure (Bytes × Reader) :=
  match reader.rest.splitAt? count with
  | some (taken, rest) => .ok (taken, reader.advance taken rest)
  | none => .error .endOfInput

/-- Take the length in front of a text. -/
def takeLength (reader : Reader) : Except Failure (UInt32 × Reader) := do
  let (value, taken, rest) ← Varint.read reader.rest
  pure (value, reader.advance taken rest)

/-- Take a text. -/
def takeText (reader : Reader) : Except Failure (String × Reader) := do
  let (length, reader) ← reader.takeLength
  let (bytes, reader) ← reader.takeBytes length.toNat
  match bytes.toText? with
  | some text => pure (text, reader)
  | none => throw .invalidText

/-- Take a 32-bit number. -/
def takeUInt32 (reader : Reader) : Except Failure (UInt32 × Reader) := do
  let (bytes, reader) ← reader.takeBytes 4
  pure (bytes.toNat.toUInt32, reader)

/-- Take a signed 32-bit number. -/
def takeInt32 (reader : Reader) : Except Failure (Int32 × Reader) := do
  let (value, reader) ← reader.takeUInt32
  pure (value.toInt32, reader)

/-- Take a signed 64-bit number. -/
def takeInt64 (reader : Reader) : Except Failure (Int64 × Reader) := do
  let (bytes, reader) ← reader.takeBytes 8
  pure (bytes.toNat.toUInt64.toInt64, reader)

/-- Take posting words. -/
def takeWords (reader : Reader) (count : Nat) : Except Failure (List UInt64 × Reader) := do
  let (bytes, reader) ← reader.takeBytes (8 * count)
  pure (bytes.toWords, reader)

/-- Take the record of this shape. -/
def take (reader : Reader) : Record.Shape → Except Failure (Record × Reader)
  | .int32 => do
      let (value, reader) ← reader.takeInt32
      pure (.int32 value, reader)
  | .uint32 => do
      let (value, reader) ← reader.takeUInt32
      pure (.uint32 value, reader)
  | .int64 => do
      let (value, reader) ← reader.takeInt64
      pure (.int64 value, reader)
  | .words count => do
      let (values, reader) ← reader.takeWords count
      pure (.words values, reader)
  | .text => do
      let (value, reader) ← reader.takeText
      pure (.text value, reader)
  | .bytes count => do
      let (values, reader) ← reader.takeBytes count
      pure (.bytes values, reader)

/-- Take a stored checksum and compare it with that of the bytes read before it. The stored
checksum itself does not count as read. -/
def verify (reader : Reader) : Except Failure (Bool × Reader) :=
  match reader.rest.splitAt? 4 with
  | some (stored, rest) =>
      .ok (stored.toNat.toUInt32 = reader.checksum.value, { reader with rest })
  | none => .error .endOfInput

end Reader

end Concordance
