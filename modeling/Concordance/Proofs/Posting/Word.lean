import Concordance.Posting.Word
import Mathlib.Algebra.GroupWithZero.Nat

/-!
# Words as numbers

A word is the number of its group, counted through all documents, together with sixteen
bits. `Word.slot` is that number: the documents have `2 ^ 16` slots each. The lemmas below
say what the operations on words do to slots and bits, and `Word.mem_addresses` reads the
addresses of a word off both. Later modules compare and change words through these two views
alone.
-/

namespace Concordance

/-! ## Sixteen bits -/

namespace Bitmap

/-- A bitmap has sixteen bits. -/
theorem testBit_of_le (bitmap : UInt16) {b : Nat} (hb : 16 ≤ b) :
    bitmap.toNat.testBit b = false :=
  Nat.testBit_lt_two_pow (Nat.lt_of_lt_of_le (UInt16.toNat_lt bitmap)
    (Nat.pow_le_pow_right (by omega) hb))

/-- Bitmaps with the same bits are equal. -/
theorem ext {first second : UInt16}
    (h : ∀ b < 16, first.toNat.testBit b = second.toNat.testBit b) : first = second := by
  apply UInt16.toNat_inj.1
  apply Nat.eq_of_testBit_eq
  intro b
  rcases Nat.lt_or_ge b 16 with hb | hb
  · exact h b hb
  · rw [testBit_of_le first hb, testBit_of_le second hb]

end Bitmap

namespace Word

/-! ## Slots -/

/-- The number of the group of a word, counted through the groups of all documents. -/
def slot (word : Word) : Nat :=
  word.toNat / 2 ^ 16

/-- There are 2 ^ 48 groups. -/
theorem slot_lt (word : Word) : word.slot < 2 ^ 48 := by
  have h := UInt64.toNat_lt word
  unfold slot
  omega

/-- A word is its slot followed by sixteen bits. -/
theorem toNat_eq_slot (word : Word) : word.toNat = word.slot * 2 ^ 16 + word.toNat % 2 ^ 16 := by
  unfold slot
  omega

/-- The group of a word consists of its upper 48 bits. -/
theorem testBit_slot (word : Word) (i : Nat) :
    word.slot.testBit i = word.toNat.testBit (i + 16) :=
  Nat.testBit_div_two_pow word.toNat i

/-- Words with the same slot and the same low bits are equal. -/
theorem eq_of_slot_eq {first second : Word} (hslot : first.slot = second.slot)
    (hbits : ∀ b < 16, first.toNat.testBit b = second.toNat.testBit b) : first = second := by
  apply UInt64.toNat_inj.1
  apply Nat.eq_of_testBit_eq
  intro i
  by_cases hi : i < 16
  · exact hbits i hi
  · rw [show i = (i - 16) + 16 by omega, ← testBit_slot, ← testBit_slot, hslot]

/-! ## Keys -/

/-- The key of a word, as a number, has zeros in place of the bitmap. -/
theorem toNat_key (word : Word) : word.key.toNat = word.slot * 2 ^ 16 := by
  apply Nat.eq_of_testBit_eq
  intro i
  have hmask : (0xFFFFFFFFFFFF0000 : UInt64).toNat = (2 ^ 48 - 1) * 2 ^ 16 := rfl
  rw [key, UInt64.toNat_and, hmask, Nat.testBit_and, Nat.testBit_mul_two_pow,
    Nat.testBit_mul_two_pow, Nat.testBit_two_pow_sub_one]
  by_cases hi : 16 ≤ i
  · rw [testBit_slot, Nat.sub_add_cancel hi]
    by_cases hlt : i - 16 < 48
    · simp [hi, hlt]
    · have hz : word.toNat.testBit i = false :=
        Nat.testBit_lt_two_pow (Nat.lt_of_lt_of_le (UInt64.toNat_lt word)
          (Nat.pow_le_pow_right (by omega) (by omega)))
      simp [hz]
  · simp [hi]

/-- Keys are ordered like groups. -/
theorem key_lt_iff {first second : Word} : first.key < second.key ↔ first.slot < second.slot := by
  rw [UInt64.lt_iff_toNat_lt, toNat_key, toNat_key]
  omega

/-- Keys are weakly ordered like groups. -/
theorem key_le_iff {first second : Word} : first.key ≤ second.key ↔ first.slot ≤ second.slot := by
  rw [UInt64.le_iff_toNat_le, toNat_key, toNat_key]
  omega

/-- Keys are equal exactly if the groups are. -/
theorem key_eq_iff {first second : Word} : first.key = second.key ↔ first.slot = second.slot := by
  rw [← UInt64.toNat_inj, toNat_key, toNat_key]
  omega

/-- The key of a word has the group of the word. -/
@[simp] theorem slot_key (word : Word) : word.key.slot = word.slot := by
  rw [slot, toNat_key]
  omega

/-! ## Bitmaps -/

/-- The bitmap of a word consists of its lower 16 bits. -/
theorem toNat_bitmap (word : Word) : word.bitmap.toNat = word.toNat % 2 ^ 16 :=
  UInt64.toNat_toUInt16 word

/-- The bits of a bitmap are the lower bits of its word. -/
theorem testBit_bitmap (word : Word) {b : Nat} (hb : b < 16) :
    word.bitmap.toNat.testBit b = word.toNat.testBit b := by
  rw [toNat_bitmap, Nat.testBit_mod_two_pow]
  simp [hb]

/-- A word whose key is combined with a bitmap keeps its slot and takes the bitmap's bits. -/
theorem toNat_key_or (word : Word) (bitmap : UInt16) :
    (word.key ||| bitmap.toUInt64).toNat = word.slot * 2 ^ 16 + bitmap.toNat := by
  have hlt : bitmap.toNat < 2 ^ 16 := UInt16.toNat_lt bitmap
  rw [UInt64.toNat_or, toNat_key, UInt16.toNat_toUInt64, Nat.mul_comm,
    Nat.two_pow_add_eq_or_of_lt hlt]

/-- Any bitmap may be put under a key without changing the group. -/
theorem slot_key_or (word : Word) (bitmap : UInt16) :
    (word.key ||| bitmap.toUInt64).slot = word.slot := by
  have hlt : bitmap.toNat < 2 ^ 16 := UInt16.toNat_lt bitmap
  rw [slot, toNat_key_or]
  omega

/-- The bits under a key are those that were put there. -/
theorem testBit_key_or (word : Word) (bitmap : UInt16) {b : Nat} (hb : b < 16) :
    (word.key ||| bitmap.toUInt64).toNat.testBit b = bitmap.toNat.testBit b := by
  rw [toNat_key_or, Nat.mul_comm, Nat.testBit_two_pow_mul_add _ (UInt16.toNat_lt bitmap)]
  simp [hb]

/-! ## Addresses -/

/-- An address belongs to a word if its group is that of the word and its bit is set. -/
theorem mem_addresses {word : Word} {x : Nat} :
    x ∈ word.addresses ↔ x / 16 = word.slot ∧ word.toNat.testBit (x % 16) := by
  simp only [addresses, offsets, List.mem_map, List.mem_filter, List.mem_range]
  constructor
  · intro h
    obtain ⟨b, ⟨hb, hset⟩, rfl⟩ := h
    rw [testBit_bitmap word hb] at hset
    refine ⟨?_, ?_⟩
    · unfold slot
      omega
    · rwa [show (word.toNat / 0x10000 * 16 + b) % 16 = b by omega]
  · intro h
    obtain ⟨hslot, hset⟩ := h
    have hb : x % 16 < 16 := Nat.mod_lt x (by omega)
    refine ⟨x % 16, ⟨hb, ?_⟩, ?_⟩
    · rw [testBit_bitmap word hb]
      exact hset
    · change word.slot * 16 + x % 16 = x
      omega

/-- A bitmap is empty exactly if its word has no address. -/
theorem bitmap_ne_zero_iff {word : Word} : word.bitmap ≠ 0 ↔ ∃ x, x ∈ word.addresses := by
  constructor
  · intro h
    have hne : word.bitmap.toNat ≠ 0 := fun hz => h (UInt16.toNat_inj.1 hz)
    obtain ⟨b, hset⟩ := Nat.exists_testBit_of_ne_zero hne
    have hb : b < 16 := by
      refine Nat.lt_of_not_le fun hle => ?_
      rw [Bitmap.testBit_of_le word.bitmap hle] at hset
      exact absurd hset Bool.false_ne_true
    refine ⟨word.slot * 16 + b, mem_addresses.2 ⟨by omega, ?_⟩⟩
    rw [testBit_bitmap word hb] at hset
    rwa [show (word.slot * 16 + b) % 16 = b by omega]
  · intro hfound hz
    obtain ⟨x, hx⟩ := hfound
    have hset := (mem_addresses.1 hx).2
    rw [← testBit_bitmap word (Nat.mod_lt x (by omega)), hz] at hset
    simp at hset

/-- Words of one slot are equal if they have the same addresses. -/
theorem eq_of_mem_addresses_iff {first second : Word} (hslot : first.slot = second.slot)
    (h : ∀ x, x ∈ first.addresses ↔ x ∈ second.addresses) : first = second := by
  refine eq_of_slot_eq hslot fun b hb => ?_
  have hx := h (first.slot * 16 + b)
  rw [mem_addresses, mem_addresses, show (first.slot * 16 + b) % 16 = b by omega,
    show (first.slot * 16 + b) / 16 = first.slot by omega] at hx
  simpa [hslot] using hx

/-- Two words of one slot are united by uniting their addresses. -/
theorem slot_or {first second : Word} (h : first.slot = second.slot) :
    (first ||| second).slot = first.slot := by
  apply Nat.eq_of_testBit_eq
  intro i
  rw [testBit_slot, UInt64.toNat_or, Nat.testBit_or, ← testBit_slot, ← testBit_slot, h,
    Bool.or_self]

/-- Two words of one group have the addresses of both when they are united. -/
theorem mem_addresses_or {first second : Word} (h : first.slot = second.slot) {x : Nat} :
    x ∈ (first ||| second).addresses ↔ x ∈ first.addresses ∨ x ∈ second.addresses := by
  rw [mem_addresses, mem_addresses, mem_addresses, slot_or h, UInt64.toNat_or, Nat.testBit_or,
    ← h, Bool.or_eq_true]
  exact and_or_left

/-! ## Documents and groups -/

/-- The document of a word is what is left of its group without the lower 16 bits. -/
theorem toNat_document (word : Word) : word.document.toNat = word.slot / 2 ^ 16 := by
  have h := slot_lt word
  rw [document, UInt64.toNat_toUInt32, UInt64.toNat_shiftRight]
  unfold slot at *
  rw [show ((32 : UInt64).toNat % 64) = 32 from rfl, Nat.shiftRight_eq_div_pow]
  omega

end Word
end Concordance
