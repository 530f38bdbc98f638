import Concordance.Bytes
import Concordance.Failure

/-!
# Lengths of variable width

A length is written in groups of seven bits, least significant group first, one
group a byte. The high bit of a byte says that another byte follows. A 32-bit
length takes at most five bytes.
-/

namespace Concordance

namespace Varint

/-- The most bytes of a 32-bit length. -/
def mostBytes : Nat := 5

/-- The bytes of a number. -/
def encodeNat (value : Nat) : Bytes :=
  if value < 128 then [value.toUInt8]
  else (value % 128 + 128).toUInt8 :: encodeNat (value / 128)

/-- The bytes of a 32-bit length. -/
def encode (value : UInt32) : Bytes :=
  encodeNat value.toNat

/-- Whether another byte follows this one. -/
def continues (byte : UInt8) : Bool :=
  byte &&& 0x80 ≠ 0

/-- Read on with the bits read so far, of which there are `7 * count`. Bits above the thirty-second
are dropped. -/
def decodeFrom (bits : UInt32) (count : Nat) : Bytes → Except Failure (UInt32 × Nat)
  | [] => .error .lengthIncomplete
  | byte :: rest =>
      if 32 ≤ 7 * count then .error .lengthOverflow
      else
        let bits := bits ||| (byte &&& 0x7F).toUInt32 <<< (7 * count).toUInt32
        if continues byte then decodeFrom bits (count + 1) rest else .ok (bits, count + 1)

/-- The length at the start of some bytes, and how many bytes it takes. -/
def decode (bytes : Bytes) : Except Failure (UInt32 × Nat) :=
  decodeFrom 0 0 bytes

/-- Separate the bytes of a length from the bytes after them. The length must end within the
first `allowed` bytes. -/
def separate : (allowed : Nat) → Bytes → Except Failure (Bytes × Bytes)
  | 0, _ => .error .lengthOverflow
  | _ + 1, [] => .error .endOfInput
  | allowed + 1, byte :: rest =>
      if continues byte then do
        let (later, rest) ← separate allowed rest
        pure (byte :: later, rest)
      else .ok ([byte], rest)

/-- Read a length from a stream: the length, its bytes, and the bytes after them. -/
def read (bytes : Bytes) : Except Failure (UInt32 × Bytes × Bytes) := do
  let (own, rest) ← separate mostBytes bytes
  let (value, _) ← decode own
  pure (value, own, rest)

end Varint

end Concordance
