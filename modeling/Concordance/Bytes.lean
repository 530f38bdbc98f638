/-!
# Bytes

Numbers are stored with their least significant byte first, and texts in UTF-8.
-/

namespace Concordance

/-- A run of bytes, such as the contents of a file. -/
abbrev Bytes := List UInt8

namespace Bytes

/-- The `count` low bytes of a number, least significant first. -/
def ofNat : (count : Nat) → (value : Nat) → Bytes
  | 0, _ => []
  | count + 1, value => (value % 256).toUInt8 :: ofNat count (value / 256)

/-- The number whose bytes these are, least significant first. -/
def toNat : Bytes → Nat
  | [] => 0
  | byte :: rest => byte.toNat + 256 * toNat rest

/-- The four bytes of a 32-bit word. -/
def ofUInt32 (value : UInt32) : Bytes :=
  ofNat 4 value.toNat

/-- The eight bytes of a 64-bit word. -/
def ofUInt64 (value : UInt64) : Bytes :=
  ofNat 8 value.toNat

/-- The bytes of consecutive 64-bit words. -/
def ofWords (words : List UInt64) : Bytes :=
  words.flatMap ofUInt64

/-- The 64-bit words stored in these bytes. Bytes at the end that make no whole word count for
nothing. -/
def toWords : Bytes → List UInt64
  | b0 :: b1 :: b2 :: b3 :: b4 :: b5 :: b6 :: b7 :: rest =>
      (toNat [b0, b1, b2, b3, b4, b5, b6, b7]).toUInt64 :: toWords rest
  | _ => []

/-- The bytes of a text. -/
def ofText (text : String) : Bytes :=
  text.toUTF8.data.toList

/-- The text with these bytes, if they are UTF-8. -/
def toText? (bytes : Bytes) : Option String :=
  String.fromUTF8? ⟨bytes.toArray⟩

/-- The first `count` bytes and those after them, if there are as many. -/
def splitAt? (bytes : Bytes) (count : Nat) : Option (Bytes × Bytes) :=
  let front := bytes.take count
  if front.length = count then some (front, bytes.drop count) else none

/-- The bytes from `begin` on, at most `count` of them. -/
def slice (bytes : Bytes) (begin count : Nat) : Bytes :=
  (bytes.drop begin).take count

end Bytes

end Concordance
