import Concordance.Record.Varint

/-!
# Records

The values that files are made of: numbers of fixed width, runs of posting words,
texts with their length in front, and plain bytes. A `Shape` says which record to
expect, and how long it is where the record itself does not tell.
-/

namespace Concordance

/-- A value in a file. -/
inductive Record where
  | int32 (value : Int32)
  | uint32 (value : UInt32)
  | int64 (value : Int64)
  | words (values : List UInt64)
  | text (value : String)
  | bytes (values : Bytes)
deriving DecidableEq, Repr

/-- What kind of record to expect. -/
inductive Record.Shape where
  | int32
  | uint32
  | int64
  | words (count : Nat)
  | text
  | bytes (count : Nat)
deriving DecidableEq, Repr

namespace Record

/-- The kind of a record. -/
def shape : Record → Shape
  | int32 _ => .int32
  | uint32 _ => .uint32
  | int64 _ => .int64
  | words values => .words values.length
  | text _ => .text
  | bytes values => .bytes values.length

/-- The bytes of a record in a file. -/
def toBytes : Record → Bytes
  | int32 value => Bytes.ofUInt32 value.toUInt32
  | uint32 value => Bytes.ofUInt32 value
  | int64 value => Bytes.ofUInt64 value.toUInt64
  | words values => Bytes.ofWords values
  | text value =>
      let content := Bytes.ofText value
      Varint.encode content.length.toUInt32 ++ content
  | bytes values => values

/-- Whether the length of a text fits in front of it. -/
def fits : Record → Bool
  | text value => (Bytes.ofText value).length < UInt32.size
  | _ => true

end Record

end Concordance
