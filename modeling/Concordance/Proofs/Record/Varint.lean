import Concordance.Proofs.Success
import Concordance.Record.Varint
import Mathlib.Algebra.GroupWithZero.Nat

/-!
# Reading back lengths

A length that was written is read back with the bytes after it left over (`read_encode`). Reading
happens in two passes: the bytes of the length are separated from those after it
(`separate_encodeNat`), and the groups of seven bits are put together (`decodeFrom_encodeNat`).
-/

namespace Concordance
namespace Varint

/-! ## Bytes -/

/-- The highest bit of a byte, as a number, is there or not. -/
theorem and_highBit (value : Nat) : value &&& 2 ^ 7 = (value.testBit 7).toNat * 2 ^ 7 := by
  apply Nat.eq_of_testBit_eq
  intro i
  rw [Nat.testBit_and, Nat.testBit_two_pow]
  by_cases h : 7 = i
  · subst h
    cases hbit : value.testBit 7
    · simp
    · decide
  · cases hbit : value.testBit 7
    · simp [h]
    · show (value.testBit i && decide (7 = i)) = (1 * 2 ^ 7 : Nat).testBit i
      rw [Nat.one_mul, Nat.testBit_two_pow_of_ne h]
      simp [h]

/-- The high bit tells whether a byte is the last one. -/
theorem continues_eq (byte : UInt8) : continues byte = decide (128 ≤ byte.toNat) := by
  have hlt : byte.toNat < 256 := UInt8.toNat_lt byte
  have hbit : (byte &&& 0x80).toNat = (byte.toNat.testBit 7).toNat * 2 ^ 7 := by
    rw [UInt8.toNat_and]
    exact and_highBit byte.toNat
  rw [continues, Bool.eq_iff_iff, decide_eq_true_iff, decide_eq_true_iff, ne_eq,
    ← UInt8.toNat_inj, hbit, Nat.testBit_eq_decide_div_mod_eq]
  by_cases h : 128 ≤ byte.toNat
  · have hone : byte.toNat / 2 ^ 7 % 2 = 1 := by omega
    rw [hone]
    exact iff_of_true (by decide) h
  · have hzero : byte.toNat / 2 ^ 7 % 2 = 0 := by omega
    rw [hzero]
    exact iff_of_false (by decide) h

/-- Without its highest bit a byte stands for its remainder by 128. -/
theorem toNat_payload (byte : UInt8) : (byte &&& 0x7F).toNat = byte.toNat % 128 := by
  rw [UInt8.toNat_and]
  exact Nat.and_two_pow_sub_one_eq_mod byte.toNat 7

/-- The last group of a number is one byte. -/
theorem toNat_last {value : Nat} (h : value < 128) : value.toUInt8.toNat = value :=
  Nat.mod_eq_of_lt (show value < 256 by omega)

/-- A group with another one behind it has the highest bit as well. -/
theorem toNat_group (value : Nat) : (value % 128 + 128).toUInt8.toNat = value % 128 + 128 :=
  Nat.mod_eq_of_lt (show value % 128 + 128 < 256 by omega)

/-- A number below 128 is a single byte. -/
theorem encodeNat_last {value : Nat} (h : value < 128) : encodeNat value = [value.toUInt8] := by
  rw [encodeNat, if_pos h]

/-- A number has at least one byte. -/
theorem length_encodeNat_pos (value : Nat) : 0 < (encodeNat value).length := by
  rw [encodeNat]
  split
  · exact Nat.zero_lt_one
  · exact Nat.zero_lt_succ _

/-- Another number begins with its lowest group, and goes on with what is left of it. -/
theorem encodeNat_group {value : Nat} (h : ¬ value < 128) :
    encodeNat value = (value % 128 + 128).toUInt8 :: encodeNat (value / 128) := by
  rw [encodeNat, if_neg h]

/-- A byte that holds a group before the last one says so. -/
theorem continues_group (value : Nat) : continues (value % 128 + 128).toUInt8 = true := by
  rw [continues_eq, toNat_group, decide_eq_true_iff]
  omega

/-- A length of more than one group does not fit into one byte, and the groups after the first
one fit into the other bytes. -/
theorem room_after_group {allowed value : Nat} (h : value < 128 ^ (allowed + 1))
    (hmore : ¬ value < 128) : 0 < allowed ∧ value / 128 < 128 ^ allowed := by
  have hdiv : value / 128 < 128 ^ allowed := by
    rw [Nat.pow_succ] at h
    omega
  refine ⟨Nat.pos_of_ne_zero fun hzero => ?_, hdiv⟩
  rw [hzero, Nat.pow_zero] at hdiv
  omega

/-! ## Separating -/

/-- The bytes of a length are separated from those after it. -/
theorem separate_encodeNat {allowed value : Nat} (hallowed : 0 < allowed)
    (h : value < 128 ^ allowed) (rest : Bytes) :
    separate allowed (encodeNat value ++ rest) = .ok (encodeNat value, rest) := by
  induction allowed generalizing value with
  | zero => omega
  | succ allowed ih =>
      by_cases hlast : value < 128
      · have hcontinues : continues value.toUInt8 = false := by
          rw [continues_eq, toNat_last hlast, decide_eq_false_iff_not]
          omega
        rw [encodeNat_last hlast]
        simp [separate, hcontinues]
      · obtain ⟨hpos, hdiv⟩ := room_after_group h hlast
        rw [encodeNat_group hlast]
        simp only [List.cons_append, separate, continues_group, if_true, ih hpos hdiv]
        rfl

/-- The bytes of a length that stop before its last one do not make up a length. -/
theorem separate_take_encodeNat {allowed value count : Nat} (hallowed : 0 < allowed)
    (h : value < 128 ^ allowed) (hcount : count < (encodeNat value).length) :
    separate allowed ((encodeNat value).take count) = .error .endOfInput := by
  induction allowed generalizing value count with
  | zero => omega
  | succ allowed ih =>
      cases count with
      | zero => rfl
      | succ count =>
          by_cases hlast : value < 128
          · rw [encodeNat_last hlast, List.length_singleton] at hcount
            omega
          · obtain ⟨hpos, hdiv⟩ := room_after_group h hlast
            rw [encodeNat_group hlast, List.length_cons] at hcount
            rw [encodeNat_group hlast]
            simp only [List.take_succ_cons, separate, continues_group, if_true,
              ih hpos hdiv (Nat.lt_of_succ_lt_succ hcount)]
            rfl

/-- What is separated are the bytes in front, and nothing is lost. -/
theorem of_separate {allowed : Nat} {bytes own rest : Bytes}
    (h : separate allowed bytes = .ok (own, rest)) : bytes = own ++ rest := by
  induction allowed generalizing bytes own with
  | zero => cases h
  | succ allowed ih =>
      cases bytes with
      | nil => cases h
      | cons byte later =>
          rw [separate] at h
          split at h
          · obtain ⟨⟨between, after⟩, hlater, h⟩ := Success.eq_ok_of_bind h
            cases h
            rw [ih hlater, List.cons_append]
          · cases h
            rfl

/-! ## Putting groups together -/

/-- The bits read so far with the seven bits of one more byte. -/
def extend (bits : UInt32) (byte : UInt8) (count : Nat) : UInt32 :=
  bits ||| (byte &&& 0x7F).toUInt32 <<< (7 * count).toUInt32

/-- A byte adds its group, and announces further bytes or ends the number. -/
theorem decodeFrom_cons (bits : UInt32) {count : Nat} (hcount : 7 * count < 32) (byte : UInt8)
    (rest : Bytes) :
    decodeFrom bits count (byte :: rest) =
      if continues byte then decodeFrom (extend bits byte count) (count + 1) rest
      else .ok (extend bits byte count, count + 1) := by
  have hroom : ¬ 32 ≤ 7 * count := by omega
  simp only [decodeFrom, if_neg hroom, extend]

/-- The number of the bits when one more group of seven is added to them. -/
theorem toNat_extend {bits : UInt32} (byte : UInt8) {count : Nat} (hcount : 7 * count < 32)
    (hbits : bits.toNat < 2 ^ (7 * count))
    (hfits : bits.toNat + byte.toNat % 128 * 2 ^ (7 * count) < 2 ^ 32) :
    (extend bits byte count).toNat = bits.toNat + byte.toNat % 128 * 2 ^ (7 * count) := by
  have hshift : (7 * count).toUInt32.toNat % 32 = 7 * count := by
    show 7 * count % 2 ^ 32 % 32 = 7 * count
    omega
  have hgroup : ((byte &&& 0x7F).toUInt32 <<< (7 * count).toUInt32).toNat =
      2 ^ (7 * count) * (byte.toNat % 128) := by
    rw [UInt32.toNat_shiftLeft, UInt8.toNat_toUInt32, toNat_payload, hshift, Nat.shiftLeft_eq,
      Nat.mul_comm, Nat.mod_eq_of_lt]
    rw [Nat.mul_comm]
    omega
  rw [extend, UInt32.toNat_or, hgroup, Nat.or_comm, ← Nat.two_pow_add_eq_or_of_lt hbits,
    Nat.mul_comm, Nat.add_comm]

/-- The groups of a length that fits into 32 bits are put together again. -/
theorem decodeFrom_encodeNat (value : Nat) {bits : UInt32} {count : Nat} (hcount : 7 * count < 32)
    (hbits : bits.toNat < 2 ^ (7 * count))
    (hfits : bits.toNat + value * 2 ^ (7 * count) < 2 ^ 32) :
    ∃ used, decodeFrom bits count (encodeNat value) =
      .ok ((bits.toNat + value * 2 ^ (7 * count)).toUInt32, used) := by
  induction value using Nat.strongRecOn generalizing bits count with
  | ind value ih =>
      by_cases hlast : value < 128
      · have hcontinues : continues value.toUInt8 = false := by
          rw [continues_eq, toNat_last hlast, decide_eq_false_iff_not]
          omega
        have hpayload : value.toUInt8.toNat % 128 = value := by
          rw [toNat_last hlast, Nat.mod_eq_of_lt hlast]
        have hvalue := toNat_extend value.toUInt8 hcount hbits (hpayload.symm ▸ hfits)
        rw [hpayload] at hvalue
        refine ⟨count + 1, ?_⟩
        rw [encodeNat_last hlast, decodeFrom_cons bits hcount, hcontinues, ← hvalue]
        simp
      · have hpayload : (value % 128 + 128).toUInt8.toNat % 128 = value % 128 := by
          rw [toNat_group]
          omega
        have hpow : 2 ^ (7 * (count + 1)) = 128 * 2 ^ (7 * count) := by
          rw [Nat.mul_add, Nat.pow_add, Nat.mul_comm]
        have hsplit : value * 2 ^ (7 * count) =
            value % 128 * 2 ^ (7 * count) + value / 128 * 2 ^ (7 * (count + 1)) := by
          rw [hpow, ← Nat.mul_assoc, ← Nat.add_mul, Nat.mul_comm (value / 128), Nat.mod_add_div]
        have hvalue := toNat_extend (value % 128 + 128).toUInt8 hcount hbits (by
          rw [hpayload]
          omega)
        rw [hpayload] at hvalue
        -- a further group is there only as long as fewer than 32 bits have been read
        have hnext : 7 * (count + 1) < 32 := by
          have hone : 1 * 2 ^ (7 * (count + 1)) ≤ value / 128 * 2 ^ (7 * (count + 1)) :=
            Nat.mul_le_mul_right _ (by omega)
          exact (Nat.pow_lt_pow_iff_right (by decide : 1 < 2)).1
            (show 2 ^ (7 * (count + 1)) < 2 ^ 32 by omega)
        have hlow : value % 128 * 2 ^ (7 * count) ≤ 127 * 2 ^ (7 * count) :=
          Nat.mul_le_mul_right _ (by omega)
        obtain ⟨used, hrest⟩ := @ih (value / 128) (by omega)
          (extend bits (value % 128 + 128).toUInt8 count) (count + 1) hnext (by omega) (by omega)
        refine ⟨used, ?_⟩
        rw [encodeNat_group hlast, decodeFrom_cons bits hcount, continues_group, if_pos rfl,
          hrest, hvalue, hsplit, Nat.add_assoc]

/-- A length is read back, and what follows it is left over. -/
theorem read_encode (value : UInt32) (rest : Bytes) :
    read (encode value ++ rest) = .ok (value, encode value, rest) := by
  have hlt : value.toNat < 2 ^ 32 := UInt32.toNat_lt value
  have hseparate := separate_encodeNat (show 0 < mostBytes by decide)
    (show value.toNat < 128 ^ mostBytes from Nat.lt_trans hlt (by decide)) rest
  obtain ⟨used, hdecode⟩ := decodeFrom_encodeNat value.toNat (show 7 * 0 < 32 by decide)
    (show (0 : UInt32).toNat < 2 ^ (7 * 0) by decide) (by simpa using hlt)
  have hvalue : ((0 : UInt32).toNat + value.toNat * 2 ^ (7 * 0)).toUInt32 = value := by
    simp
  rw [hvalue] at hdecode
  simp only [read, encode, hseparate, decode, hdecode, bind, Except.bind, pure, Except.pure]

/-- A length that stops before its last byte is noticed. -/
theorem read_take_encode (value : UInt32) {count : Nat} (hcount : count < (encode value).length) :
    read ((encode value).take count) = .error .endOfInput := by
  have hlt : value.toNat < 2 ^ 32 := UInt32.toNat_lt value
  have hseparate := separate_take_encodeNat (show 0 < mostBytes by decide)
    (show value.toNat < 128 ^ mostBytes from Nat.lt_trans hlt (by decide)) hcount
  rw [read, encode, hseparate]
  rfl

/-- The bytes of a length stand in front of those that are left over. -/
theorem of_read {bytes own rest : Bytes} {value : UInt32}
    (h : read bytes = .ok (value, own, rest)) : bytes = own ++ rest := by
  obtain ⟨⟨front, after⟩, hseparate, h⟩ := Success.eq_ok_of_bind h
  obtain ⟨_, _, h⟩ := Success.eq_ok_of_bind h
  cases h
  exact of_separate hseparate

end Varint
end Concordance
