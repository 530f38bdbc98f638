import Concordance.Bytes

/-!
# Checksums

The standard cyclic redundancy check of 32 bits, with the reflected polynomial
`0xEDB88320`. A checksum is the left fold of a step over the bytes, so it can be
kept up to date while data passes by.
-/

namespace Concordance

/-- The running state of a checksum. -/
structure Checksum where
  state : UInt32 := 0xFFFFFFFF
deriving DecidableEq, Repr

namespace Checksum

/-- The reflected generator polynomial. -/
def polynomial : UInt32 := 0xEDB88320

/-- Divide out one bit. -/
def stepBit (state : UInt32) : UInt32 :=
  if state &&& 1 = 1 then (state >>> 1) ^^^ polynomial else state >>> 1

/-- Take in one byte. -/
def stepByte (state : UInt32) (byte : UInt8) : UInt32 :=
  Nat.repeat stepBit 8 (state ^^^ byte.toUInt32)

/-- Take in bytes. -/
def add (checksum : Checksum) (bytes : Bytes) : Checksum :=
  ⟨bytes.foldl stepByte checksum.state⟩

/-- The checksum of the bytes taken in. -/
def value (checksum : Checksum) : UInt32 :=
  ~~~checksum.state

/-- The checksum of bytes. -/
def ofBytes (bytes : Bytes) : UInt32 :=
  (add {} bytes).value

end Checksum

end Concordance
