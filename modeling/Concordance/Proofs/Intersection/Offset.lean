import Concordance.Intersection.Offset
import Concordance.Proofs.Posting.Canonical

/-!
# What offsets do to addresses

Moving a position forward adds the offset to its address. If it stays in the group that the word
was moved to, `matchShifted` finds it; otherwise it arrives in the group after that one, the word
has a carry, and `matchCarried` finds it there. No addition overflows as long as the slots
involved stay below `2 ^ 48`.
-/

namespace Concordance
namespace Offset

/-! ## The parts of an offset -/

/-- The groups of an offset are added behind the bitmap. -/
theorem toNat_groups (length : UInt32) :
    (ofLength length).groups.toNat = length.toNat / 16 * 2 ^ 16 := by
  have hlt : length.toNat < 2 ^ 32 := UInt32.toNat_lt length
  have hstep : Word.groupStep.toNat = 2 ^ 16 := rfl
  have hsixteen : (16 : UInt32).toNat = 16 := rfl
  rw [ofLength, UInt64.toNat_mul, UInt32.toNat_toUInt64, UInt32.toNat_div, hstep, hsixteen,
    Nat.mod_eq_of_lt (by omega)]

/-- The places of an offset are what its groups leave over. -/
theorem toNat_places (length : UInt32) : (ofLength length).places.toNat = length.toNat % 16 := by
  change length.toNat % 16 % 2 ^ 16 = _
  omega

/-- The bits that a bitwise complement has. -/
theorem testBit_not (mask : UInt16) {b : Nat} (hb : b < 16) :
    (~~~mask).toNat.testBit b = !mask.toNat.testBit b := by
  rw [UInt16.toNat_not]
  change (2 ^ 16 - 1 - mask.toNat).testBit b = _
  rw [Nat.sub_sub, Nat.add_comm 1, Nat.testBit_two_pow_sub_succ (UInt16.toNat_lt mask)]
  simp [hb]

/-- Shifted bits stand higher by the places of the offset. -/
theorem testBit_shiftLeft (bits : UInt16) (length : UInt32) {b : Nat} (hb : b < 16) :
    (bits <<< (ofLength length).places).toNat.testBit b =
      (decide (length.toNat % 16 ≤ b) && bits.toNat.testBit (b - length.toNat % 16)) := by
  rw [UInt16.toNat_shiftLeft, toNat_places, Nat.mod_mod, Nat.testBit_mod_two_pow,
    Nat.testBit_shiftLeft]
  simp [hb]

/-- The bits that leave a group are its highest ones, as many as there are places. -/
theorem testBit_leaving (length : UInt32) {b : Nat} (hb : b < 16) :
    (ofLength length).leaving.toNat.testBit b = decide (16 ≤ length.toNat % 16 + b) := by
  have hones : (0xFFFF : UInt16).toNat = 2 ^ 16 - 1 := rfl
  change (~~~(0xFFFF >>> (ofLength length).places)).toNat.testBit b = _
  rw [testBit_not _ hb, UInt16.toNat_shiftRight, toNat_places, Nat.mod_mod,
    Nat.testBit_shiftRight, hones, Nat.testBit_two_pow_sub_one, ← decide_not]
  simp only [Nat.not_lt]

/-- The bits that arrive in a group are its lowest ones, as many as there are places. -/
theorem testBit_arriving (length : UInt32) {b : Nat} (hb : b < 16) :
    (ofLength length).arriving.toNat.testBit b = decide (b < length.toNat % 16) := by
  have hones : (0xFFFF : UInt16).toNat = 2 ^ 16 - 1 := rfl
  change (~~~(0xFFFF <<< (ofLength length).places)).toNat.testBit b = _
  rw [testBit_not _ hb, testBit_shiftLeft _ _ hb, hones, Nat.testBit_two_pow_sub_one]
  by_cases h : length.toNat % 16 ≤ b
  · simp [h, show b - length.toNat % 16 < 16 by omega]
  · simp [h, show b < length.toNat % 16 by omega]

/-! ## Moving words -/

/-- Adding groups to a word moves its slot and keeps its bits. -/
theorem toNat_add_groups {word step : Word} {groups : Nat} (hstep : step.toNat = groups * 2 ^ 16)
    (h : word.slot + groups < 2 ^ 48) :
    (word + step).toNat = (word.slot + groups) * 2 ^ 16 + word.toNat % 2 ^ 16 := by
  have hword := word.toNat_eq_slot
  rw [UInt64.toNat_add, hstep, Nat.mod_eq_of_lt (by omega)]
  omega

/-- Whole groups that are added move a word by their number. -/
theorem slot_add_groups {word step : Word} {groups : Nat} (hstep : step.toNat = groups * 2 ^ 16)
    (h : word.slot + groups < 2 ^ 48) : (word + step).slot = word.slot + groups := by
  rw [Word.slot, toNat_add_groups hstep h]
  omega

/-- Whole groups that are added leave the bitmap alone. -/
theorem testBit_add_groups {word step : Word} {groups : Nat} (hstep : step.toNat = groups * 2 ^ 16)
    (h : word.slot + groups < 2 ^ 48) {b : Nat} (hb : b < 16) :
    (word + step).toNat.testBit b = word.toNat.testBit b := by
  have hlt : word.toNat % 2 ^ 16 < 2 ^ 16 := Nat.mod_lt _ (by omega)
  rw [toNat_add_groups hstep h, Nat.mul_comm, Nat.testBit_two_pow_mul_add _ hlt, if_pos hb,
    Nat.testBit_mod_two_pow]
  simp [hb]

variable {length : UInt32} {word : Word}

/-- Moving a word by whole groups. -/
theorem slot_shiftGroups (h : word.slot + length.toNat / 16 < 2 ^ 48) :
    ((ofLength length).shiftGroups word).slot = word.slot + length.toNat / 16 :=
  slot_add_groups (toNat_groups length) h

/-- Moving by whole groups leaves the bitmap alone. -/
theorem testBit_shiftGroups (h : word.slot + length.toNat / 16 < 2 ^ 48) {b : Nat} (hb : b < 16) :
    ((ofLength length).shiftGroups word).toNat.testBit b = word.toNat.testBit b :=
  testBit_add_groups (toNat_groups length) h hb

/-- The key of a moved word, as a number. -/
theorem toNat_key_add_groups (h : word.slot + length.toNat / 16 < 2 ^ 48) :
    (word.key + (ofLength length).groups).toNat = (word.slot + length.toNat / 16) * 2 ^ 16 := by
  have hkey : word.key.slot + length.toNat / 16 < 2 ^ 48 := by rwa [Word.slot_key]
  rw [toNat_add_groups (toNat_groups length) hkey, Word.toNat_key, Word.slot_key]
  omega

/-- Comparing a moved key compares slots. -/
theorem key_add_groups_lt_iff {other : Word} (h : word.slot + length.toNat / 16 < 2 ^ 48) :
    word.key + (ofLength length).groups < other.key ↔
      word.slot + length.toNat / 16 < other.slot := by
  rw [UInt64.lt_iff_toNat_lt, toNat_key_add_groups h, Word.toNat_key]
  omega

/-- Moved keys are equal exactly if the groups are. -/
theorem key_add_groups_eq_iff {other : Word} (h : word.slot + length.toNat / 16 < 2 ^ 48) :
    word.key + (ofLength length).groups = other.key ↔
      word.slot + length.toNat / 16 = other.slot := by
  rw [← UInt64.toNat_inj, toNat_key_add_groups h, Word.toNat_key]
  omega

/-- Moving a word to the next group. -/
theorem slot_add_groupStep (h : word.slot + 1 < 2 ^ 48) :
    (word + Word.groupStep).slot = word.slot + 1 :=
  slot_add_groups rfl h

/-- Moving to the next group leaves the bitmap alone. -/
theorem testBit_add_groupStep (h : word.slot + 1 < 2 ^ 48) {b : Nat} (hb : b < 16) :
    (word + Word.groupStep).toNat.testBit b = word.toNat.testBit b :=
  have hstep : Word.groupStep.toNat = 1 * 2 ^ 16 := rfl
  testBit_add_groups hstep h hb

/-! ## Matches -/

/-- The bits of a match inside a group. -/
theorem testBit_matchShifted (left right : Word) {b : Nat} (hb : b < 16) :
    ((ofLength length).matchShifted left right).toNat.testBit b =
      (decide (length.toNat % 16 ≤ b) && left.toNat.testBit (b - length.toNat % 16) &&
        right.toNat.testBit b) := by
  rw [matchShifted, Word.testBit_key_or _ _ hb, UInt16.toNat_and, Nat.testBit_and, shifted,
    testBit_shiftLeft _ _ hb, Word.testBit_bitmap _ hb, Word.testBit_bitmap _ (by omega)]

/-- The bits that a carry brings to its group. -/
theorem testBit_carriedBits (bits : UInt16) {b : Nat} (hb : b < 16) :
    ((ofLength length).carriedBits bits).toNat.testBit b =
      (decide (b < length.toNat % 16) && bits.toNat.testBit (16 - length.toNat % 16 + b)) := by
  rw [carriedBits, UInt16.toNat_and, Nat.testBit_and, testBit_arriving _ hb, UInt16.toNat_or,
    Nat.testBit_or, testBit_shiftLeft _ _ hb]
  by_cases h : b < length.toNat % 16
  · have hplaces : (16 - (ofLength length).places).toNat = 16 - length.toNat % 16 := by
      have hle : (ofLength length).places ≤ 16 := by
        rw [UInt16.le_iff_toNat_le, toNat_places]
        change _ ≤ 16
        omega
      rw [UInt16.toNat_sub_of_le _ _ hle, toNat_places]
      rfl
    rw [UInt16.toNat_shiftRight, hplaces,
      Nat.mod_eq_of_lt (show 16 - length.toNat % 16 < 16 by omega), Nat.testBit_shiftRight,
      decide_eq_false (Nat.not_le.2 h), Bool.false_and, Bool.false_or, Bool.and_comm]
  · simp [h]

/-- A carried match has the low bits of the right word that the top bits of the left one reach. -/
theorem testBit_matchCarried (left right : Word) {b : Nat} (hb : b < 16) :
    ((ofLength length).matchCarried left right).toNat.testBit b =
      (decide (b < length.toNat % 16) && left.toNat.testBit (16 - length.toNat % 16 + b) &&
        right.toNat.testBit b) := by
  rw [matchCarried, Word.testBit_key_or _ _ hb, UInt16.toNat_and, Nat.testBit_and,
    testBit_carriedBits _ hb, Word.testBit_bitmap _ hb]
  by_cases h : b < length.toNat % 16
  · rw [Word.testBit_bitmap _ (by omega)]
  · simp [h]

/-- A match stands where the left word stands. -/
@[simp] theorem slot_matchShifted (offset : Offset) (left right : Word) :
    (offset.matchShifted left right).slot = left.slot :=
  Word.slot_key_or left _

/-- A carried match stands where the carry stands. -/
@[simp] theorem slot_matchCarried (offset : Offset) (left right : Word) :
    (offset.matchCarried left right).slot = left.slot :=
  Word.slot_key_or left _

variable {left right : Word}

/-- A match inside a group consists of the right addresses that are a left address moved on. -/
theorem mem_addresses_matchShifted (hslot : left.slot + length.toNat / 16 = right.slot) {y : Nat} :
    y ∈ ((ofLength length).matchShifted ((ofLength length).shiftGroups left) right).addresses ↔
      y ∈ right.addresses ∧ ∃ x ∈ left.addresses, x + length.toNat = y := by
  have hlt : left.slot + length.toNat / 16 < 2 ^ 48 := hslot ▸ right.slot_lt
  have hb : y % 16 < 16 := Nat.mod_lt y (by omega)
  rw [Word.mem_addresses, Word.mem_addresses, slot_matchShifted,
    testBit_matchShifted _ _ hb, slot_shiftGroups hlt, hslot, Bool.and_eq_true, Bool.and_eq_true,
    decide_eq_true_eq]
  constructor
  · intro h
    obtain ⟨hy, ⟨hle, hleft⟩, hright⟩ := h
    rw [testBit_shiftGroups hlt (by omega)] at hleft
    refine ⟨⟨hy, hright⟩, y - length.toNat, Word.mem_addresses.2 ⟨by omega, ?_⟩, by omega⟩
    rwa [show (y - length.toNat) % 16 = y % 16 - length.toNat % 16 by omega]
  · intro h
    obtain ⟨⟨hy, hright⟩, x, hx, rfl⟩ := h
    obtain ⟨hxs, hxb⟩ := Word.mem_addresses.1 hx
    refine ⟨hy, ⟨by omega, ?_⟩, hright⟩
    rw [testBit_shiftGroups hlt (by omega)]
    rwa [show (x + length.toNat) % 16 - length.toNat % 16 = x % 16 by omega]

/-- A match of a carry consists of the right addresses that are a left address moved on. -/
theorem mem_addresses_matchCarried (hslot : left.slot + length.toNat / 16 + 1 = right.slot)
    {y : Nat} :
    y ∈ ((ofLength length).matchCarried
        ((ofLength length).shiftGroups left + Word.groupStep) right).addresses ↔
      y ∈ right.addresses ∧ ∃ x ∈ left.addresses, x + length.toNat = y := by
  have hlt : left.slot + length.toNat / 16 + 1 < 2 ^ 48 := hslot ▸ right.slot_lt
  have hmoved : ((ofLength length).shiftGroups left).slot = left.slot + length.toNat / 16 :=
    slot_shiftGroups (by omega)
  have hb : y % 16 < 16 := Nat.mod_lt y (by omega)
  rw [Word.mem_addresses, Word.mem_addresses, slot_matchCarried,
    testBit_matchCarried _ _ hb, slot_add_groupStep (by omega), hmoved, hslot, Bool.and_eq_true,
    Bool.and_eq_true, decide_eq_true_eq]
  constructor
  · intro h
    obtain ⟨hy, ⟨hle, hleft⟩, hright⟩ := h
    rw [testBit_add_groupStep (by omega) (by omega), testBit_shiftGroups (by omega) (by omega)]
      at hleft
    refine ⟨⟨hy, hright⟩, y - length.toNat, Word.mem_addresses.2 ⟨by omega, ?_⟩, by omega⟩
    rwa [show (y - length.toNat) % 16 = 16 - length.toNat % 16 + y % 16 by omega]
  · intro h
    obtain ⟨⟨hy, hright⟩, x, hx, rfl⟩ := h
    obtain ⟨hxs, hxb⟩ := Word.mem_addresses.1 hx
    refine ⟨hy, ⟨by omega, ?_⟩, hright⟩
    rw [testBit_add_groupStep (by omega) (by omega), testBit_shiftGroups (by omega) (by omega)]
    rwa [show 16 - length.toNat % 16 + (x + length.toNat) % 16 = x % 16 by omega]

/-! ## Carries -/

/-- A bitmap that shares a bit with a mask is not lost to it. -/
theorem and_ne_zero_iff (bits mask : UInt16) :
    bits &&& mask ≠ 0 ↔ ∃ b < 16, bits.toNat.testBit b ∧ mask.toNat.testBit b := by
  constructor
  · intro h
    have hne : (bits &&& mask).toNat ≠ 0 := fun hz => h (UInt16.toNat_inj.1 hz)
    obtain ⟨b, hb⟩ := Nat.exists_testBit_of_ne_zero hne
    rw [UInt16.toNat_and, Nat.testBit_and, Bool.and_eq_true] at hb
    refine ⟨b, ?_, hb⟩
    have hle := Nat.ge_two_pow_of_testBit hb.1
    exact (Nat.pow_lt_pow_iff_right (a := 2) (by omega)).1
      (Nat.lt_of_le_of_lt hle (UInt16.toNat_lt bits))
  · intro hfound hz
    obtain ⟨b, -, hbits, hmask⟩ := hfound
    have h : (bits &&& mask).toNat.testBit b = true := by
      rw [UInt16.toNat_and, Nat.testBit_and, hbits, hmask]
      rfl
    rw [hz] at h
    exact absurd h (by simp)

/-- A word has a carry exactly if some of its positions leaves the group it is moved to. -/
theorem overflows_iff (h : word.slot + length.toNat / 16 < 2 ^ 48) :
    (ofLength length).overflows ((ofLength length).shiftGroups word) = true ↔
      ∃ x ∈ word.addresses, (x + length.toNat) / 16 = word.slot + length.toNat / 16 + 1 := by
  rw [overflows, decide_eq_true_eq, and_ne_zero_iff]
  constructor
  · intro hfound
    obtain ⟨b, hb, hset, hleaving⟩ := hfound
    rw [Word.testBit_bitmap _ hb, testBit_shiftGroups h hb] at hset
    rw [testBit_leaving _ hb, decide_eq_true_eq] at hleaving
    refine ⟨word.slot * 16 + b, Word.mem_addresses.2 ⟨by omega, ?_⟩, by omega⟩
    rwa [show (word.slot * 16 + b) % 16 = b by omega]
  · intro hfound
    obtain ⟨x, hx, hnext⟩ := hfound
    obtain ⟨hxs, hxb⟩ := Word.mem_addresses.1 hx
    have hb : x % 16 < 16 := Nat.mod_lt x (by omega)
    refine ⟨x % 16, hb, ?_, ?_⟩
    · rwa [Word.testBit_bitmap _ hb, testBit_shiftGroups h hb]
    · rw [testBit_leaving _ hb, decide_eq_true_eq]
      omega

end Offset
end Concordance
