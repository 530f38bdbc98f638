import Concordance.Record.Checksum
import Concordance.Record.Record

/-!
# Writing records

A writer collects the bytes of records and keeps their number and checksum. The
checksum can be written behind the records; it does not cover itself.
-/

namespace Concordance

/-- The records written so far. -/
structure Writer where
  /-- The pieces written, last first. -/
  pieces : List Bytes := []
  /-- The number of bytes written. -/
  position : Nat := 0
  /-- The checksum of the bytes written. -/
  checksum : Checksum := {}
deriving Repr

namespace Writer

/-- The bytes written, in order. -/
def toBytes (writer : Writer) : Bytes :=
  writer.pieces.reverse.flatten

/-- Write bytes. -/
def putBytes (writer : Writer) (bytes : Bytes) : Writer :=
  { pieces := bytes :: writer.pieces
    position := writer.position + bytes.length
    checksum := writer.checksum.add bytes }

/-- Write a record. -/
def put (writer : Writer) (record : Record) : Except Failure Writer :=
  if record.fits then .ok (writer.putBytes record.toBytes) else .error .textTooLong

/-- Write records in order. -/
def putAll (writer : Writer) (records : List Record) : Except Failure Writer :=
  records.foldlM put writer

/-- Fill up with zeros to the next multiple of `alignment`, which is not zero. -/
def fill (writer : Writer) (alignment : Nat) : Writer :=
  let excess := writer.position % alignment
  if excess = 0 then writer else writer.putBytes (List.replicate (alignment - excess) 0)

/-- Fill up with zeros to the next multiple of `alignment`, which must not be zero. -/
def padTo (writer : Writer) (alignment : Nat) : Except Failure Writer :=
  if alignment = 0 then .error .zeroAlignment else .ok (writer.fill alignment)

/-- The bytes written, followed by their checksum. -/
def sealed (writer : Writer) : Bytes :=
  writer.toBytes ++ Bytes.ofUInt32 writer.checksum.value

end Writer

end Concordance
