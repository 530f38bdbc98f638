import Concordance.Bytes
import Mathlib.Algebra.GroupWithZero.Nat

/-!
# Reading back bytes

What is written as bytes is read back: numbers (`toNat_ofNat`), words (`toWords_ofWords`) and texts
(`toText?_ofText`).
-/

namespace Concordance
namespace Bytes

/-! ## Numbers -/

/-- A number is written with as many bytes as asked for, however large it is. -/
@[simp] theorem length_ofNat (count value : Nat) : (ofNat count value).length = count := by
  induction count generalizing value with
  | zero => rfl
  | succ count ih => rw [ofNat, List.length_cons, ih]

/-- A number is read back if it has no more bytes than were written. -/
theorem toNat_ofNat {count value : Nat} (h : value < 256 ^ count) :
    toNat (ofNat count value) = value := by
  induction count generalizing value with
  | zero =>
      show 0 = value
      omega
  | succ count ih =>
      have hrest : value / 256 < 256 ^ count := by
        rw [Nat.pow_succ] at h
        omega
      have hbyte : (value % 256).toUInt8.toNat = value % 256 :=
        Nat.mod_eq_of_lt (Nat.mod_lt value (by omega))
      rw [ofNat, toNat, ih hrest, hbyte]
      omega

/-- Some bytes stand for a number that needs no more of them. -/
theorem toNat_lt (bytes : Bytes) : bytes.toNat < 256 ^ bytes.length := by
  induction bytes with
  | nil => exact Nat.one_pos
  | cons byte rest ih =>
      have hbyte := byte.toNat_lt
      rw [toNat, List.length_cons, Nat.pow_succ]
      omega

/-- Bytes are those of the number that is read from them. -/
theorem ofNat_toNat (bytes : Bytes) : ofNat bytes.length bytes.toNat = bytes := by
  induction bytes with
  | nil => rfl
  | cons byte rest ih =>
      have hbyte := byte.toNat_lt
      have hlow : (byte.toNat + 256 * toNat rest) % 256 = byte.toNat := by omega
      have hhigh : (byte.toNat + 256 * toNat rest) / 256 = toNat rest := by omega
      rw [toNat, List.length_cons, ofNat, hlow, hhigh, ih]
      exact congrArg (· :: rest) UInt8.ofNat_toNat

/-- A number of 32 bits takes four bytes. -/
@[simp] theorem length_ofUInt32 (value : UInt32) : (ofUInt32 value).length = 4 :=
  length_ofNat 4 _

/-- A number of 64 bits takes eight bytes. -/
@[simp] theorem length_ofUInt64 (value : UInt64) : (ofUInt64 value).length = 8 :=
  length_ofNat 8 _

/-- What is read of a number of 32 bits is the number. -/
@[simp] theorem toUInt32_ofUInt32 (value : UInt32) : (ofUInt32 value).toNat.toUInt32 = value := by
  rw [ofUInt32, toNat_ofNat (UInt32.toNat_lt value)]
  exact UInt32.ofNat_toNat

/-- Four bytes are those of the word that is read from them. -/
theorem ofUInt32_toUInt32 {bytes : Bytes} (h : bytes.length = 4) :
    ofUInt32 bytes.toNat.toUInt32 = bytes := by
  have hlt := toNat_lt bytes
  rw [h] at hlt
  have hvalue : bytes.toNat.toUInt32.toNat = bytes.toNat := Nat.mod_eq_of_lt hlt
  rw [ofUInt32, hvalue, ← h, ofNat_toNat]

/-- What is read of a number of 64 bits is the number. -/
@[simp] theorem toUInt64_ofUInt64 (value : UInt64) : (ofUInt64 value).toNat.toUInt64 = value := by
  rw [ofUInt64, toNat_ofNat (UInt64.toNat_lt value)]
  exact UInt64.ofNat_toNat

/-! ## Words -/

/-- The first word comes first. -/
theorem ofWords_cons (word : UInt64) (words : List UInt64) :
    ofWords (word :: words) = ofUInt64 word ++ ofWords words := rfl

/-- Every word takes eight bytes. -/
@[simp] theorem length_ofWords (words : List UInt64) :
    (ofWords words).length = 8 * words.length := by
  induction words with
  | nil => rfl
  | cons word words ih =>
      rw [ofWords_cons, List.length_append, ih, length_ofUInt64, List.length_cons]
      omega

/-- Eight bytes in front of others make one word. -/
theorem toWords_append {front : Bytes} (h : front.length = 8) (rest : Bytes) :
    toWords (front ++ rest) = front.toNat.toUInt64 :: toWords rest := by
  match front, h with
  | [b0, b1, b2, b3, b4, b5, b6, b7], _ => rfl

/-- Words are read back. -/
theorem toWords_ofWords (words : List UInt64) : toWords (ofWords words) = words := by
  induction words with
  | nil => rfl
  | cons word words ih =>
      rw [ofWords_cons, toWords_append (length_ofUInt64 word), toUInt64_ofUInt64, ih]

/-! ## Texts -/

/-- Texts are read back. -/
theorem toText?_ofText (text : String) : toText? (ofText text) = some text := by
  have hsame : (⟨(ofText text).toArray⟩ : ByteArray) = text.toUTF8 := by
    show (⟨text.toUTF8.data.toList.toArray⟩ : ByteArray) = text.toUTF8
    rw [Array.toArray_toList]
  rw [toText?, hsame]
  unfold String.fromUTF8?
  split
  · rfl
  · rename_i h
    exact absurd text.isValidUTF8 h

/-! ## Parts -/

/-- A prefix of a known length can be split off. -/
theorem splitAt?_append (front rest : Bytes) :
    splitAt? (front ++ rest) front.length = some (front, rest) := by
  simp [splitAt?]

/-- What is split off are the bytes in front, and nothing is lost. -/
theorem of_splitAt? {bytes front rest : Bytes} {count : Nat}
    (h : splitAt? bytes count = some (front, rest)) : bytes = front ++ rest := by
  simp only [splitAt?] at h
  split at h
  · cases h
    exact (List.take_append_drop count bytes).symm
  · cases h

/-- Too few bytes cannot be split. -/
theorem splitAt?_short {bytes : Bytes} {count : Nat} (h : bytes.length < count) :
    splitAt? bytes count = none := by
  have hshort : (bytes.take count).length ≠ count := by
    rw [List.length_take]
    omega
  simp only [splitAt?, if_neg hshort]

/-- A part is found at the place where it was put. -/
theorem slice_append (before part after : Bytes) :
    slice (before ++ part ++ after) before.length part.length = part := by
  simp [slice]

/-- Bytes at the end do not change the parts in front of them. -/
theorem slice_append_of_le {bytes : Bytes} {begin count : Nat} (h : begin + count ≤ bytes.length)
    (after : Bytes) : slice (bytes ++ after) begin count = slice bytes begin count := by
  rw [slice, slice, List.drop_append_of_le_length (by omega), List.take_append_of_le_length]
  rw [List.length_drop]
  omega

/-- Parts of one size stand at the multiples of this size. -/
theorem slice_flatMap {α : Type} {part : α → Bytes} {size : Nat}
    (h : ∀ element, (part element).length = size) (elements : List α) (index : Nat) :
    slice (elements.flatMap part) (size * index) size =
      (elements[index]?.map part).getD [] := by
  induction elements generalizing index with
  | nil => simp [slice]
  | cons element rest ih =>
      rw [List.flatMap_cons]
      cases index with
      | zero =>
          rw [Nat.mul_zero, slice, List.drop_zero, ← h element, List.take_left]
          rfl
      | succ index =>
          rw [List.getElem?_cons_succ, ← ih index, slice, slice, Nat.mul_succ, Nat.add_comm,
            ← List.drop_drop, ← h element, List.drop_left]

end Bytes
end Concordance
