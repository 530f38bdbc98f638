import Concordance.Proofs.Posting.Documents

/-!
# Words of positions

Appending the positions of a document to a list appends exactly their addresses, whatever their
order is, and no word without a position.
-/

namespace Concordance
namespace Word

/-! ## The word of a position -/

/-- The key of a group of a document. -/
theorem toNat_group (document : DocumentId) (group : UInt16) :
    (ofDocument document ||| ofGroup group).toNat =
      (document.toNat * 2 ^ 16 + group.toNat) * 2 ^ 16 := by
  have hd : document.toNat < 2 ^ 32 := UInt32.toNat_lt document
  have hg : group.toNat < 2 ^ 16 := UInt16.toNat_lt group
  have hdocument : (ofDocument document).toNat = 2 ^ 32 * document.toNat := by
    rw [ofDocument, UInt64.toNat_shiftLeft, UInt32.toNat_toUInt64, Nat.shiftLeft_eq]
    change document.toNat * 2 ^ 32 % 2 ^ 64 = _
    omega
  have hgroup : (ofGroup group).toNat = group.toNat * 2 ^ 16 := by
    rw [ofGroup, UInt64.toNat_shiftLeft, UInt16.toNat_toUInt64, Nat.shiftLeft_eq]
    change group.toNat * 2 ^ 16 % 2 ^ 64 = _
    omega
  rw [UInt64.toNat_or, hdocument, hgroup, ← Nat.two_pow_add_eq_or_of_lt (by omega)]
  omega

/-- A single bit stands for an offset in a group. -/
theorem toNat_ofOffset {offset : UInt16} (h : offset.toNat < 16) :
    (ofOffset offset).toNat = 2 ^ offset.toNat := by
  have hlt : 2 ^ offset.toNat < 2 ^ 16 := Nat.pow_lt_pow_right (by omega) h
  rw [ofOffset, UInt64.toNat_shiftLeft, UInt16.toNat_toUInt64, Nat.shiftLeft_eq,
    Nat.mod_eq_of_lt (show offset.toNat < 64 by omega)]
  change 1 * 2 ^ offset.toNat % 2 ^ 64 = _
  omega

/-- A bit is added to a word whose key is that of a group. -/
theorem toNat_group_or_offset (document : DocumentId) (group : UInt16) {offset : UInt16}
    (h : offset.toNat < 16) :
    (ofDocument document ||| ofGroup group ||| ofOffset offset).toNat =
      (document.toNat * 2 ^ 16 + group.toNat) * 2 ^ 16 + 2 ^ offset.toNat := by
  have hlt : 2 ^ offset.toNat < 2 ^ 16 := Nat.pow_lt_pow_right (by omega) h
  rw [UInt64.toNat_or, toNat_group, toNat_ofOffset h, Nat.mul_comm,
    Nat.two_pow_add_eq_or_of_lt hlt]

variable {document : DocumentId} {position : Position}

/-- The group of a position counts sixteen positions. -/
theorem toNat_positionGroup (h : position < Position.limit) :
    position.group.toNat = position.toNat / 16 := by
  have hlt : position.toNat < 16 * 65535 := UInt32.lt_iff_toNat_lt.1 h
  change (position.toNat / 16) % 2 ^ 16 = _
  omega

/-- The offset of a position is what its group leaves over. -/
theorem toNat_positionOffset : position.offset.toNat = position.toNat % 16 := by
  change (position.toNat % 16) % 2 ^ 16 = _
  omega

/-- The word of a position, as a number. -/
theorem toNat_ofPosition (h : position < Position.limit) :
    (ofPosition document position).toNat =
      (document.toNat * 2 ^ 16 + position.toNat / 16) * 2 ^ 16 + 2 ^ (position.toNat % 16) := by
  have hoffset : position.offset.toNat < 16 := by
    rw [toNat_positionOffset]
    omega
  rw [ofPosition, toNat_group_or_offset document position.group hoffset, toNat_positionGroup h,
    toNat_positionOffset]

/-- The word of a position stands in the group of the document that holds the position. -/
theorem slot_ofPosition (h : position < Position.limit) :
    (ofPosition document position).slot = document.toNat * 2 ^ 16 + position.toNat / 16 := by
  have hpow : 2 ^ (position.toNat % 16) < 2 ^ 16 :=
    Nat.pow_lt_pow_right (by omega) (Nat.mod_lt _ (by omega))
  rw [slot, toNat_ofPosition h]
  generalize 2 ^ (position.toNat % 16) = bit at hpow
  omega

/-- The word of a position has this position's address and no other. -/
theorem mem_addresses_ofPosition (h : position < Position.limit) {x : Nat} :
    x ∈ (ofPosition document position).addresses ↔ x = address document position.toNat := by
  have hpow : 2 ^ (position.toNat % 16) < 2 ^ 16 :=
    Nat.pow_lt_pow_right (by omega) (Nat.mod_lt _ (by omega))
  rw [mem_addresses, slot_ofPosition h, toNat_ofPosition h,
    Nat.mul_comm (_ + position.toNat / 16) (2 ^ 16), Nat.testBit_two_pow_mul_add _ hpow,
    if_pos (by omega), Nat.testBit_two_pow, decide_eq_true_eq]
  unfold address
  omega

/-- A word already has the bits of its key. -/
theorem or_key (word : Word) : word ||| word.key = word := by
  apply UInt64.toNat_inj.1
  apply Nat.eq_of_testBit_eq
  intro i
  rw [key, UInt64.toNat_or, UInt64.toNat_and, Nat.testBit_or, Nat.testBit_and]
  cases word.toNat.testBit i <;> rfl

/-- Setting the bit of a position in a word of its group unites the word with that of the
position. -/
theorem or_ofOffset_eq {word : Word}
    (hkey : word.key = ofDocument document ||| ofGroup position.group) :
    word ||| ofOffset position.offset = word ||| ofPosition document position := by
  rw [ofPosition, ← hkey, ← UInt64.or_assoc, or_key]

/-- The words of a position's group are those with its slot. -/
theorem key_eq_group_iff (h : position < Position.limit) {word : Word} :
    word.key = ofDocument document ||| ofGroup position.group ↔
      word.slot = (ofPosition document position).slot := by
  rw [← UInt64.toNat_inj, toNat_key, toNat_group, slot_ofPosition h, toNat_positionGroup h]
  omega

/-- Setting a bit of a word adds the address of a position of its group. -/
theorem mem_addresses_or_ofOffset {word : Word}
    (hkey : word.key = ofDocument document ||| ofGroup position.group)
    (h : position < Position.limit) {x : Nat} :
    x ∈ (word ||| ofOffset position.offset).addresses ↔
      x ∈ word.addresses ∨ x = address document position.toNat := by
  rw [or_ofOffset_eq hkey, mem_addresses_or ((key_eq_group_iff h).1 hkey),
    mem_addresses_ofPosition h]

end Word

namespace Postings

/-! ## The words of several positions -/

variable {document : DocumentId}

/-- Recording a position adds its address. -/
theorem mem_addresses_record {opened : Postings} {position : Position}
    (h : position < Position.limit) {x : Nat} :
    x ∈ addresses (record document opened position) ↔
      x ∈ opened.addresses ∨ x = address document position.toNat := by
  cases opened with
  | nil => simp [record, Word.mem_addresses_ofPosition h]
  | cons last earlier =>
      rw [record]
      split
      · rename_i hkey
        rw [mem_addresses_cons, Word.mem_addresses_or_ofOffset hkey h, mem_addresses_cons,
          or_right_comm]
      · rw [mem_addresses_cons, Word.mem_addresses_ofPosition h]
        exact or_comm

/-- Recording a position leaves no bitmap empty. -/
theorem Full.record {opened : Postings} (hopened : opened.Full) {position : Position}
    (h : position < Position.limit) : Full (record document opened position) := by
  have hnew : (Word.ofPosition document position).bitmap ≠ 0 :=
    Word.bitmap_ne_zero_iff.2 ⟨_, (Word.mem_addresses_ofPosition h).2 rfl⟩
  cases opened with
  | nil =>
      intro word hword
      rw [List.mem_singleton.1 hword]
      exact hnew
  | cons last earlier =>
      rw [Postings.record]
      split
      · rename_i hkey
        intro word hword
        rcases List.mem_cons.1 hword with rfl | hword
        · exact Word.bitmap_ne_zero_iff.2
            ⟨_, (Word.mem_addresses_or_ofOffset hkey h).2 (Or.inr rfl)⟩
        · exact hopened word (List.mem_cons_of_mem _ hword)
      · intro word hword
        rcases List.mem_cons.1 hword with rfl | hword
        · exact hnew
        · exact hopened word hword

/-- The addresses of a reversed list are the same. -/
theorem mem_addresses_reverse {words : Postings} {x : Nat} :
    x ∈ addresses words.reverse ↔ x ∈ words.addresses := by
  simp only [mem_addresses, List.mem_reverse]

/-- What recording positions one after another yields. -/
theorem foldl_record {positions : List Position} (h : ∀ p ∈ positions, p < Position.limit)
    {opened : Postings} (hopened : opened.Full) :
    Full (positions.foldl (record document) opened) ∧
      ∀ x, x ∈ addresses (positions.foldl (record document) opened) ↔
        x ∈ opened.addresses ∨ ∃ p ∈ positions, x = address document p.toNat := by
  induction positions generalizing opened with
  | nil => exact ⟨hopened, fun x => by simp⟩
  | cons position rest ih =>
      have hposition := h position List.mem_cons_self
      have hrecorded : Full (record document opened position) := hopened.record hposition
      obtain ⟨hfull, hmem⟩ := ih (fun p hp => h p (List.mem_cons_of_mem _ hp)) hrecorded
      refine ⟨hfull, fun x => ?_⟩
      rw [List.foldl_cons, hmem, mem_addresses_record hposition, or_assoc]
      simp only [List.mem_cons, exists_eq_or_imp]

variable {positions : List Position}

/-- The words of positions have exactly the addresses of these positions. -/
theorem mem_addresses_ofPositions (h : ∀ p ∈ positions, p < Position.limit) {x : Nat} :
    x ∈ addresses (ofPositions document positions) ↔
      ∃ p ∈ positions, x = address document p.toNat := by
  rw [ofPositions, mem_addresses_reverse, (foldl_record h Full.nil).2]
  simp

/-- The words of positions that can be indexed are not empty. -/
theorem full_ofPositions (h : ∀ p ∈ positions, p < Position.limit) :
    Full (ofPositions document positions) := by
  intro word hword
  exact (foldl_record h Full.nil).1 word (List.mem_reverse.1 hword)

/-- Appending the positions of a document adds their addresses. -/
theorem mem_addresses_push {words : Postings} (h : ∀ p ∈ positions, p < Position.limit) {x : Nat} :
    x ∈ addresses (push words document positions) ↔
      x ∈ words.addresses ∨ ∃ p ∈ positions, x = address document p.toNat := by
  rw [push, mem_addresses_append, mem_addresses_ofPositions h]

/-- Pushing positions that can be indexed adds no empty words. -/
theorem Full.push {words : Postings} (hwords : words.Full)
    (h : ∀ p ∈ positions, p < Position.limit) : Full (push words document positions) :=
  hwords.append (full_ofPositions h)

end Postings
end Concordance
