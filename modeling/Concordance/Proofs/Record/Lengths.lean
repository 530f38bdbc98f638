import Concordance.Proofs.Record.Varint
import Mathlib.Algebra.BigOperators.Ring.List
import Mathlib.Algebra.Ring.Nat

/-!
# What bytes are read as a length

The bytes of a length end with the first one that does not announce another (`Varint.EndsAt`), and
the groups of seven bits in them stand for a number (`Varint.worth`). A length is read from exactly
those bytes that end within the first five, from a run of bytes as from a stream, and it is the
number modulo `2 ^ 32` (`Varint.decode_exact`): bits of the fifth byte that do not fit are dropped
without notice (`Varint.decode_drops_bits`).
-/

namespace Concordance
namespace Varint

/-! ## Groups -/

/-- The number that groups of seven bits stand for, least significant group first. -/
def worth (bytes : Bytes) : Nat :=
  (bytes.zipIdx.map fun group => group.1.toNat % 128 * 128 ^ group.2).sum

/-- The first `count` bytes are the bytes of a length: all of them but the last one announce
another byte by their high bits. -/
structure EndsAt (bytes : Bytes) (count : Nat) : Prop where
  pos : 0 < count
  inside : count ≤ bytes.length
  announces : ∀ index (h : index < bytes.length), index < count →
    (128 ≤ bytes[index].toNat ↔ index + 1 < count)

/-- The first group counts once, and the others 128 times. -/
theorem worth_cons (byte : UInt8) (rest : Bytes) :
    worth (byte :: rest) = byte.toNat % 128 + worth rest * 128 := by
  have hshift : ∀ group : UInt8 × Nat, group.1.toNat % 128 * 128 ^ (group.2 + 1) =
      group.1.toNat % 128 * 128 ^ group.2 * 128 := by
    intro group
    rw [Nat.pow_succ, Nat.mul_assoc]
  rw [worth, List.zipIdx_cons, List.map_cons, List.sum_cons, List.zipIdx_succ, List.map_map]
  simp only [Function.comp_def, hshift, Nat.pow_zero, Nat.mul_one]
  rw [List.sum_map_mul_right, worth]

variable {byte : UInt8} {rest bytes : Bytes} {count : Nat}

/-- No bytes do not make up a length. -/
theorem not_endsAt_nil : ¬ EndsAt [] count := fun h =>
  Nat.not_lt_of_le h.inside h.pos

/-- A byte that announces no other one is the last one. -/
theorem endsAt_last (h : continues byte = false) : EndsAt (byte :: rest) count ↔ count = 1 := by
  have hlow : ¬ 128 ≤ byte.toNat := by
    rwa [continues_eq, decide_eq_false_iff_not] at h
  constructor
  · intro hends
    have hfirst := hends.announces 0 (Nat.succ_pos _) hends.pos
    have hpos := hends.pos
    by_contra hne
    exact hlow (hfirst.2 (by omega))
  · rintro rfl
    refine ⟨Nat.one_pos, Nat.succ_le_succ (Nat.zero_le _), fun index _ hindex => ?_⟩
    obtain rfl : index = 0 := by omega
    exact iff_of_false hlow (by omega)

/-- A byte that announces another one stands in front of the bytes of a length. -/
theorem endsAt_group (h : continues byte = true) :
    EndsAt (byte :: rest) count ↔ ∃ own, count = own + 1 ∧ EndsAt rest own := by
  have hhigh : 128 ≤ byte.toNat := by
    rwa [continues_eq, decide_eq_true_iff] at h
  constructor
  · intro hends
    have hmore := (hends.announces 0 (Nat.succ_pos _) hends.pos).1 hhigh
    obtain ⟨own, rfl⟩ : ∃ own, count = own + 1 := ⟨count - 1, by omega⟩
    refine ⟨own, rfl, by omega, Nat.le_of_succ_le_succ hends.inside, fun index hlt hindex => ?_⟩
    have hlater := hends.announces (index + 1) (Nat.succ_lt_succ hlt) (Nat.succ_lt_succ hindex)
    rw [List.getElem_cons_succ] at hlater
    omega
  · rintro ⟨own, rfl, hends⟩
    refine ⟨Nat.succ_pos _, Nat.succ_le_succ hends.inside, fun index hlt hindex => ?_⟩
    cases index with
    | zero => exact iff_of_true hhigh (Nat.succ_lt_succ hends.pos)
    | succ index =>
        have hlater := hends.announces index (Nat.lt_of_succ_lt_succ hlt)
          (Nat.lt_of_succ_lt_succ hindex)
        rw [List.getElem_cons_succ]
        omega

/-- The bytes of a length end at one place only. -/
theorem EndsAt.unique {other : Nat} (h : EndsAt bytes count) (hother : EndsAt bytes other) :
    count = other := by
  induction bytes generalizing count other with
  | nil => exact absurd h not_endsAt_nil
  | cons byte rest ih =>
      cases hbyte : continues byte with
      | false => rw [(endsAt_last hbyte).1 h, (endsAt_last hbyte).1 hother]
      | true =>
          obtain ⟨own, rfl, hown⟩ := (endsAt_group hbyte).1 h
          obtain ⟨own', rfl, hown'⟩ := (endsAt_group hbyte).1 hother
          rw [ih hown hown']

/-- The bytes of a length are a length without those after them. -/
theorem EndsAt.take (h : EndsAt bytes count) : EndsAt (bytes.take count) count := by
  refine ⟨h.pos, ?_, fun index hlt hindex => ?_⟩
  · rw [List.length_take, Nat.min_eq_left h.inside]
  · rw [List.getElem_take]
    exact h.announces index (Nat.lt_of_lt_of_le hindex h.inside) hindex

/-! ## Decoding -/

/-- The number of the bits when one more group of seven is added to them, without those for which
there is no room. -/
theorem toNat_extend_mod {bits : UInt32} (byte : UInt8) (hcount : 7 * count < 32)
    (hbits : bits.toNat < 2 ^ (7 * count)) :
    (extend bits byte count).toNat =
      (bits.toNat + byte.toNat % 128 * 2 ^ (7 * count)) % 2 ^ 32 := by
  have hshift : (7 * count).toUInt32.toNat % 32 = 7 * count := by
    show 7 * count % 2 ^ 32 % 32 = 7 * count
    omega
  have hwidth : 2 ^ 32 = 2 ^ (7 * count) * 2 ^ (32 - 7 * count) := by
    rw [← Nat.pow_add]
    congr 1
    omega
  -- what is left of the group stands above the bits that are there
  have hgroup : ((byte &&& 0x7F).toUInt32 <<< (7 * count).toUInt32).toNat =
      2 ^ (7 * count) * (byte.toNat % 128 % 2 ^ (32 - 7 * count)) := by
    rw [UInt32.toNat_shiftLeft, UInt8.toNat_toUInt32, toNat_payload, hshift, Nat.shiftLeft_eq,
      Nat.mul_comm, hwidth, Nat.mul_mod_mul_left]
  rw [extend, UInt32.toNat_or, hgroup, Nat.or_comm, ← Nat.two_pow_add_eq_or_of_lt hbits, hwidth,
    Nat.mul_comm (byte.toNat % 128), Nat.mod_mul, Nat.add_mul_mod_self_left,
    Nat.mod_eq_of_lt hbits, Nat.add_mul_div_left _ _ (Nat.two_pow_pos _), Nat.div_eq_of_lt hbits,
    Nat.zero_add, Nat.add_comm]

/-- Reading on succeeds exactly where the bytes of a length end early enough, and yields their
number with what was read before, modulo `2 ^ 32`. -/
theorem decodeFrom_eq_ok_iff {bits : UInt32} (hbits : bits.toNat < 2 ^ (7 * count))
    {value : UInt32} {used : Nat} :
    decodeFrom bits count bytes = .ok (value, used) ↔
      ∃ own, used = count + own ∧ used ≤ mostBytes ∧ EndsAt bytes own ∧
        value.toNat = (bits.toNat + worth (bytes.take own) * 2 ^ (7 * count)) % 2 ^ 32 := by
  induction bytes generalizing bits count with
  | nil =>
      refine iff_of_false (fun h => ?_) (fun ⟨own, _, _, hends, _⟩ => not_endsAt_nil hends)
      cases h
  | cons byte rest ih =>
      by_cases hcount : 7 * count < 32
      · have hvalue := toNat_extend_mod byte hcount hbits
        rw [decodeFrom_cons bits hcount]
        cases hbyte : continues byte with
        | false =>
            simp only [Bool.false_eq_true, if_false, Except.ok.injEq, Prod.mk.injEq]
            constructor
            · rintro ⟨rfl, rfl⟩
              refine ⟨1, rfl, ?_, (endsAt_last hbyte).2 rfl, ?_⟩
              · show count + 1 ≤ 5
                omega
              · rw [hvalue, List.take_succ_cons, List.take_zero, worth_cons]
                simp [worth]
            · rintro ⟨own, rfl, -, hends, hnumber⟩
              obtain rfl := (endsAt_last hbyte).1 hends
              refine ⟨UInt32.toNat_inj.1 ?_, rfl⟩
              rw [hnumber, hvalue, List.take_succ_cons, List.take_zero, worth_cons]
              simp [worth]
        | true =>
            have hpow : 2 ^ (7 * (count + 1)) = 128 * 2 ^ (7 * count) := by
              rw [Nat.mul_add, Nat.pow_add, Nat.mul_comm]
            have hlow : byte.toNat % 128 * 2 ^ (7 * count) ≤ 127 * 2 ^ (7 * count) :=
              Nat.mul_le_mul_right _ (by omega)
            have hmod := Nat.mod_le (bits.toNat + byte.toNat % 128 * 2 ^ (7 * count)) (2 ^ 32)
            have hnext : (extend bits byte count).toNat < 2 ^ (7 * (count + 1)) := by
              omega
            -- the number of the later groups counts for 128 times as much
            have hnumber : ∀ own, (bits.toNat + worth ((byte :: rest).take (own + 1)) *
                2 ^ (7 * count)) % 2 ^ 32 = ((extend bits byte count).toNat +
                  worth (rest.take own) * 2 ^ (7 * (count + 1))) % 2 ^ 32 := by
              intro own
              rw [hvalue, Nat.mod_add_mod, List.take_succ_cons, worth_cons, hpow, Nat.add_mul,
                Nat.mul_assoc, Nat.add_assoc]
            rw [if_pos rfl, ih hnext]
            constructor
            · rintro ⟨own, rfl, hroom, hends, hworth⟩
              refine ⟨own + 1, by omega, hroom, (endsAt_group hbyte).2 ⟨own, rfl, hends⟩, ?_⟩
              rw [hnumber, hworth]
            · rintro ⟨own, rfl, hroom, hends, hworth⟩
              obtain ⟨own, rfl, hrest⟩ := (endsAt_group hbyte).1 hends
              exact ⟨own, by omega, hroom, hrest, hworth.trans (hnumber own)⟩
      · have hover : 32 ≤ 7 * count := by omega
        rw [decodeFrom, if_pos hover]
        refine iff_of_false (fun h => ?_) ?_
        · cases h
        · rintro ⟨own, rfl, hroom, hends, -⟩
          have hpos := hends.pos
          have hfive : count + own ≤ 5 := hroom
          omega

/-- A length is decoded from exactly the bytes that end within the first five. -/
theorem decode_eq_ok_iff {value : UInt32} :
    decode bytes = .ok (value, count) ↔ count ≤ mostBytes ∧ EndsAt bytes count ∧
      value.toNat = worth (bytes.take count) % 2 ^ 32 := by
  have hstart : ((0 : UInt32).toNat : Nat) < 2 ^ (7 * 0) := by decide
  rw [decode, decodeFrom_eq_ok_iff hstart]
  simp

/-! ## Reading from a stream -/

/-- The bytes of a length are separated from those after them where they end early enough. -/
theorem separate_eq_ok_iff {allowed : Nat} {own after : Bytes} :
    separate allowed bytes = .ok (own, after) ↔
      ∃ count ≤ allowed, EndsAt bytes count ∧ own = bytes.take count ∧
        after = bytes.drop count := by
  induction allowed generalizing bytes own with
  | zero =>
      refine iff_of_false (fun h => ?_) ?_
      · cases h
      · rintro ⟨count, hcount, hends, -⟩
        have hpos := hends.pos
        omega
  | succ allowed ih =>
      cases bytes with
      | nil =>
          refine iff_of_false (fun h => ?_) (fun ⟨_, _, hends, _⟩ => not_endsAt_nil hends)
          cases h
      | cons byte rest =>
          rw [separate]
          cases hbyte : continues byte with
          | false =>
              simp only [Bool.false_eq_true, if_false, Except.ok.injEq, Prod.mk.injEq]
              constructor
              · rintro ⟨rfl, rfl⟩
                exact ⟨1, Nat.succ_le_succ (Nat.zero_le _), (endsAt_last hbyte).2 rfl, rfl, rfl⟩
              · rintro ⟨count, -, hends, rfl, rfl⟩
                obtain rfl := (endsAt_last hbyte).1 hends
                exact ⟨rfl, rfl⟩
          | true =>
              rw [if_pos rfl]
              constructor
              · intro h
                obtain ⟨⟨later, left⟩, hlater, h⟩ := Success.eq_ok_of_bind h
                cases h
                obtain ⟨count, hcount, hends, rfl, rfl⟩ := ih.1 hlater
                exact ⟨count + 1, Nat.succ_le_succ hcount,
                  (endsAt_group hbyte).2 ⟨count, rfl, hends⟩, rfl, rfl⟩
              · rintro ⟨count, hcount, hends, rfl, rfl⟩
                obtain ⟨count, rfl, hrest⟩ := (endsAt_group hbyte).1 hends
                rw [ih.2 ⟨count, Nat.le_of_succ_le_succ hcount, hrest, rfl, rfl⟩]
                rfl

/-- A length is read from a stream where it is decoded, and its bytes are taken off the front. -/
theorem read_eq_ok_iff {value : UInt32} {own after : Bytes} :
    read bytes = .ok (value, own, after) ↔
      ∃ count, decode bytes = .ok (value, count) ∧ own = bytes.take count ∧
        after = bytes.drop count := by
  constructor
  · intro h
    obtain ⟨⟨front, left⟩, hseparate, h⟩ := Success.eq_ok_of_bind h
    obtain ⟨⟨number, used⟩, hdecode, h⟩ := Success.eq_ok_of_bind h
    cases h
    obtain ⟨count, hcount, hends, rfl, rfl⟩ := separate_eq_ok_iff.1 hseparate
    obtain ⟨-, hused, hvalue⟩ := decode_eq_ok_iff.1 hdecode
    obtain rfl := hused.unique hends.take
    rw [List.take_take, Nat.min_self] at hvalue
    exact ⟨used, decode_eq_ok_iff.2 ⟨hcount, hends, hvalue⟩, rfl, rfl⟩
  · rintro ⟨count, hdecode, rfl, rfl⟩
    obtain ⟨hcount, hends, hvalue⟩ := decode_eq_ok_iff.1 hdecode
    have hown : decode (bytes.take count) = .ok (value, count) := by
      refine decode_eq_ok_iff.2 ⟨hcount, hends.take, ?_⟩
      rw [List.take_take, Nat.min_self]
      exact hvalue
    rw [read, separate_eq_ok_iff.2 ⟨count, hcount, hends, rfl, rfl⟩]
    show (decode (bytes.take count) >>= _) = _
    rw [hown]
    rfl

/-- **What is read as a length.** A length is decoded from a run of bytes exactly if some of them,
at most five, are the bytes of a length: all but the last of them announce another byte. It is the
number that their groups stand for, modulo `2 ^ 32`. Any other bytes fail. Reading from a stream
succeeds for the same bytes with the same length, and takes its bytes off the front. -/
theorem decode_exact (bytes : Bytes) :
    (∀ value count, decode bytes = .ok (value, count) ↔ count ≤ 5 ∧ EndsAt bytes count ∧
      value.toNat = worth (bytes.take count) % 2 ^ 32) ∧
    ∀ value own after, read bytes = .ok (value, own, after) ↔
      ∃ count, decode bytes = .ok (value, count) ∧ own = bytes.take count ∧
        after = bytes.drop count :=
  ⟨fun _ _ => decode_eq_ok_iff, fun _ _ _ => read_eq_ok_iff⟩

/-- Five bytes stand for `2 ^ 32`, which is no length of 32 bits, but they are decoded as zero. -/
theorem decode_drops_bits :
    worth [0x80, 0x80, 0x80, 0x80, 0x10] = 2 ^ 32 ∧
      ¬ ∀ value count, decode [0x80, 0x80, 0x80, 0x80, 0x10] = .ok (value, count) ↔
        count ≤ 5 ∧ EndsAt [0x80, 0x80, 0x80, 0x80, 0x10] count ∧
          value.toNat = worth (([0x80, 0x80, 0x80, 0x80, 0x10] : Bytes).take count) := by
  refine ⟨by decide, fun hexact => ?_⟩
  have hdecode : decode [0x80, 0x80, 0x80, 0x80, 0x10] = .ok (0, 5) := by decide
  obtain ⟨-, -, hvalue⟩ := (hexact 0 5).1 hdecode
  exact absurd hvalue (by decide)

end Varint
end Concordance
