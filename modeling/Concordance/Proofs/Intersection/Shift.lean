import Concordance.Intersection.Intersect
import Concordance.Proofs.Intersection.Block
import Concordance.Proofs.Intersection.Gallop
import Concordance.Proofs.Posting.Documents

/-!
# A phrase intersection is a shift

Whatever strategy carries out its passes, an intersection merges what the two passes of a merge
join find (`value_intersect`). The first pass finds the positions that stay in the group their
word is moved to, the second those that arrive in the next group, so that together they are the
right positions that stand the given number of positions after a left one
(`mem_addresses_intersect`).
-/

namespace Concordance

/-- The value of counted steps does not depend on their counts. -/
@[simp] theorem Counted.value_bind {α β : Type} (first : Counted α) (next : α → Counted β) :
    (first >>= next).value = (next first.value).value := rfl

namespace Postings

variable {lefts rights : Postings} {length : UInt32}

/-! ## Merging -/

/-- Without left words, the right ones are left. -/
theorem merge_nil_left (rights : Postings) : merge [] rights = dropEmpty rights := by
  cases rights <;> rw [merge.eq_def]

/-- Without right words, the left ones are left. -/
theorem merge_nil_right (lefts : Postings) : merge lefts [] = dropEmpty lefts := by
  cases lefts <;> rw [merge.eq_def]

/-- Merging unites two lists. -/
theorem mem_addresses_merge (lefts rights : Postings) {x : Nat} :
    x ∈ addresses (merge lefts rights) ↔ x ∈ lefts.addresses ∨ x ∈ rights.addresses := by
  fun_induction merge lefts rights with
  | case1 left lefts right rights h ih =>
      have hor := @Word.mem_addresses_or left right (Word.key_eq_iff.1 h) x
      simp only [mem_addresses_append, mem_addresses_dropEmpty, mem_addresses_cons, addresses_nil,
        List.not_mem_nil, or_false, hor, ih]
      grind
  | case2 left lefts right rights hne hlt ih =>
      simp only [mem_addresses_append, mem_addresses_dropEmpty, mem_addresses_cons, addresses_nil,
        List.not_mem_nil, or_false, ih, or_assoc]
  | case3 left lefts right rights hne hnlt ih =>
      simp only [mem_addresses_append, mem_addresses_dropEmpty, mem_addresses_cons, addresses_nil,
        List.not_mem_nil, or_false, ih]
      grind
  | case4 rights => rw [mem_addresses_dropEmpty, addresses_nil, or_iff_right List.not_mem_nil]
  | case5 lefts h => rw [mem_addresses_dropEmpty, addresses_nil, or_iff_left List.not_mem_nil]

/-- Dropping the empty words adds none. -/
theorem mem_of_mem_dropEmpty {words : Postings} {word : Word} (h : word ∈ dropEmpty words) :
    word ∈ words :=
  (List.mem_filter.1 h).1

/-- Every merged word has the slot of a word of either list. -/
theorem exists_slot_of_mem_merge {word : Word} (h : word ∈ merge lefts rights) :
    (∃ left ∈ lefts, left.slot = word.slot) ∨ ∃ right ∈ rights, right.slot = word.slot := by
  fun_induction merge lefts rights with
  | case1 left lefts right rights hkey ih =>
      rcases List.mem_append.1 h with h | h
      · rw [List.mem_singleton.1 (mem_of_mem_dropEmpty h), Word.slot_or (Word.key_eq_iff.1 hkey)]
        exact Or.inl ⟨left, List.mem_cons_self, rfl⟩
      · rcases ih h with ⟨l, hl, heq⟩ | ⟨r, hr, heq⟩
        · exact Or.inl ⟨l, List.mem_cons_of_mem _ hl, heq⟩
        · exact Or.inr ⟨r, List.mem_cons_of_mem _ hr, heq⟩
  | case2 left lefts right rights hne hlt ih =>
      rcases List.mem_append.1 h with h | h
      · rw [List.mem_singleton.1 (mem_of_mem_dropEmpty h)]
        exact Or.inl ⟨left, List.mem_cons_self, rfl⟩
      · rcases ih h with ⟨l, hl, heq⟩ | hright
        · exact Or.inl ⟨l, List.mem_cons_of_mem _ hl, heq⟩
        · exact Or.inr hright
  | case3 left lefts right rights hne hnlt ih =>
      rcases List.mem_append.1 h with h | h
      · rw [List.mem_singleton.1 (mem_of_mem_dropEmpty h)]
        exact Or.inr ⟨right, List.mem_cons_self, rfl⟩
      · rcases ih h with hleft | ⟨r, hr, heq⟩
        · exact Or.inl hleft
        · exact Or.inr ⟨r, List.mem_cons_of_mem _ hr, heq⟩
  | case4 rights => exact Or.inr ⟨word, mem_of_mem_dropEmpty h, rfl⟩
  | case5 lefts hne => exact Or.inl ⟨word, mem_of_mem_dropEmpty h, rfl⟩

/-- A word below all words of two lists may be put in front of what they merge to. -/
theorem ascending_dropEmpty_append_merge {word : Word}
    (hleft : ∀ left ∈ lefts, word.slot < left.slot)
    (hright : ∀ right ∈ rights, word.slot < right.slot) (h : Ascending (merge lefts rights)) :
    Ascending (dropEmpty [word] ++ merge lefts rights) := by
  have hsingle : Ascending [word] := List.pairwise_singleton _ _
  refine List.pairwise_append.2 ⟨(canonical_dropEmpty hsingle).ascending, h, ?_⟩
  intro first hfirst later hlater
  rw [List.mem_singleton.1 (mem_of_mem_dropEmpty hfirst), Word.key_lt_iff]
  rcases exists_slot_of_mem_merge hlater with ⟨l, hl, heq⟩ | ⟨r, hr, heq⟩
  · exact heq ▸ hleft l hl
  · exact heq ▸ hright r hr

/-- Merging lists with ascending keys yields one. -/
theorem ascending_merge (hlefts : lefts.Ascending) (hrights : rights.Ascending) :
    Ascending (merge lefts rights) := by
  fun_induction merge lefts rights with
  | case1 left lefts right rights hkey ih =>
      have hslot := Word.key_eq_iff.1 hkey
      obtain ⟨hl, hlefts⟩ := ascending_cons.1 hlefts
      obtain ⟨hr, hrights⟩ := ascending_cons.1 hrights
      refine ascending_dropEmpty_append_merge ?_ ?_ (ih hlefts hrights)
      · rw [Word.slot_or hslot]
        exact hl
      · rw [Word.slot_or hslot, hslot]
        exact hr
  | case2 left lefts right rights hne hlt ih =>
      have hslot := Word.key_lt_iff.1 hlt
      obtain ⟨hl, hlefts⟩ := ascending_cons.1 hlefts
      refine ascending_dropEmpty_append_merge hl (fun r hr => ?_) (ih hlefts hrights)
      rcases List.mem_cons.1 hr with rfl | hr
      · exact hslot
      · exact Nat.lt_trans hslot ((ascending_cons.1 hrights).1 r hr)
  | case3 left lefts right rights hne hnlt ih =>
      have hslot := mt Word.key_lt_iff.2 hnlt
      have hslot' := mt Word.key_eq_iff.2 hne
      obtain ⟨hr, hrights⟩ := ascending_cons.1 hrights
      refine ascending_dropEmpty_append_merge (fun l hl => ?_) hr (ih hlefts hrights)
      rcases List.mem_cons.1 hl with rfl | hl
      · omega
      · have hlt := (ascending_cons.1 hlefts).1 l hl
        omega
  | case4 rights => exact (canonical_dropEmpty hrights).ascending
  | case5 lefts h => exact (canonical_dropEmpty hlefts).ascending

/-- No empty words are left after they were dropped. -/
theorem full_dropEmpty (words : Postings) : Full (dropEmpty words) :=
  fun _ hword => of_decide_eq_true (List.mem_filter.1 hword).2

/-- A merge leaves no empty words. -/
theorem full_merge (lefts rights : Postings) : Full (merge lefts rights) := by
  fun_induction merge lefts rights with
  | case1 left lefts right rights hkey ih => exact (full_dropEmpty _).append ih
  | case2 left lefts right rights hne hlt ih => exact (full_dropEmpty _).append ih
  | case3 left lefts right rights hne hnlt ih => exact (full_dropEmpty _).append ih
  | case4 rights => exact full_dropEmpty rights
  | case5 lefts h => exact full_dropEmpty lefts

end Postings

/-! ## Strategies -/

namespace Strategy

variable {lefts rights : Postings} {length : UInt32}

/-- All strategies carry out the first pass of the merge join. -/
theorem firstPass_eq (strategy : Strategy) (hlefts : lefts.Ascending)
    (hrights : rights.Ascending) (hfits : Offset.Fits length lefts) :
    strategy.firstPass (.ofLength length) lefts rights =
      Scalar.firstPass (.ofLength length) lefts rights := by
  cases strategy with
  | scalar => rfl
  | gallop => exact Gallop.firstPass_eq hlefts.sorted hrights.sorted hfits.shifts
  | block => exact Block.firstPass_eq hlefts hrights hfits.shifts

/-- All strategies carry out the second pass of the merge join. -/
theorem secondPass_eq (strategy : Strategy) (hlefts : lefts.Ascending)
    (hrights : rights.Ascending) :
    strategy.secondPass (.ofLength length) lefts rights =
      Scalar.secondPass (.ofLength length) lefts rights := by
  cases strategy with
  | scalar => rfl
  | gallop => exact Gallop.secondPass_eq hlefts.sorted hrights.sorted
  | block => exact Block.secondPass_eq hlefts hrights

end Strategy

/-! ## The addresses found -/

namespace Scalar

variable {lefts rights : Postings} {length : UInt32}

/-- The first pass finds the positions that stay in the group their word is moved to. -/
theorem mem_addresses_matched (hlefts : lefts.Ascending) (hrights : rights.Ascending)
    (hfits : Offset.Fits length lefts) {y : Nat} :
    y ∈ (firstPass (.ofLength length) lefts rights).matched.addresses ↔
      y ∈ rights.addresses ∧ ∃ x ∈ lefts.addresses, x + length.toNat = y ∧
        y / 16 = x / 16 + length.toNat / 16 := by
  rw [Postings.mem_addresses]
  constructor
  · intro h
    obtain ⟨word, hword, hy⟩ := h
    obtain ⟨l, hl, r, hr, hslot, rfl⟩ := (mem_matched_firstPass hlefts hrights hfits.shifts).1 hword
    obtain ⟨hyr, x, hx, hxy⟩ := (Offset.mem_addresses_matchShifted hslot).1 hy
    have hxs := (Word.mem_addresses.1 hx).1
    have hys := (Word.mem_addresses.1 hyr).1
    exact ⟨Postings.mem_addresses.2 ⟨r, hr, hyr⟩, x, Postings.mem_addresses.2 ⟨l, hl, hx⟩, hxy,
      by omega⟩
  · intro h
    obtain ⟨hy, x, hx, hxy, hgroup⟩ := h
    obtain ⟨r, hr, hyr⟩ := Postings.mem_addresses.1 hy
    obtain ⟨l, hl, hxl⟩ := Postings.mem_addresses.1 hx
    have hxs := (Word.mem_addresses.1 hxl).1
    have hys := (Word.mem_addresses.1 hyr).1
    have hslot : l.slot + length.toNat / 16 = r.slot := by omega
    exact ⟨_, (mem_matched_firstPass hlefts hrights hfits.shifts).2 ⟨l, hl, r, hr, hslot, rfl⟩,
      (Offset.mem_addresses_matchShifted hslot).2 ⟨hyr, x, hxl, hxy⟩⟩

/-- A word has a carry if one of its positions leaves the group the word is moved to. -/
theorem mem_carry_iff {left word : Word} (h : left.slot + length.toNat / 16 < 2 ^ 48) :
    word ∈ (Offset.ofLength length).carry ((Offset.ofLength length).shiftGroups left) ↔
      (∃ x ∈ left.addresses, (x + length.toNat) / 16 = left.slot + length.toNat / 16 + 1) ∧
        word = (Offset.ofLength length).shiftGroups left + Word.groupStep := by
  rw [Offset.carry, ← Offset.overflows_iff h]
  split
  · rename_i hover
    rw [List.mem_singleton]
    exact (and_iff_right hover).symm
  · rename_i hover
    exact iff_of_false List.not_mem_nil fun hword => hover hword.1

/-- A carry stands one group behind the shifted word. -/
theorem slot_carry {left : Word} (h : left.slot + length.toNat / 16 + 1 < 2 ^ 48) :
    ((Offset.ofLength length).shiftGroups left + Word.groupStep).slot =
      left.slot + length.toNat / 16 + 1 := by
  have hmoved : ((Offset.ofLength length).shiftGroups left).slot = left.slot + length.toNat / 16 :=
    Offset.slot_shiftGroups (by omega)
  rw [Offset.slot_add_groupStep (by omega), hmoved]

/-- The second pass finds the positions that arrive in the next group. -/
theorem mem_addresses_carried (hlefts : lefts.Ascending) (hrights : rights.Ascending)
    (hfits : Offset.Fits length lefts) {y : Nat} :
    y ∈ Postings.addresses (secondPass (.ofLength length)
        (firstPass (.ofLength length) lefts rights).carries rights) ↔
      y ∈ rights.addresses ∧ ∃ x ∈ lefts.addresses, x + length.toNat = y ∧
        y / 16 = x / 16 + length.toNat / 16 + 1 := by
  have hcarries := @ascending_carries_firstPass length lefts rights hlefts hfits
  rw [Postings.mem_addresses]
  constructor
  · intro h
    obtain ⟨word, hword, hy⟩ := h
    obtain ⟨c, hc, r, hr, hslot, rfl⟩ := (mem_secondPass hcarries hrights).1 hword
    obtain ⟨l, hl, -, hcl⟩ := (mem_carries_firstPass hlefts hrights hfits.shifts).1 hc
    have hroom := hfits.slot_lt hl
    -- a carry is its left word, moved by one group more than the offset says
    obtain ⟨-, rfl⟩ := (mem_carry_iff (by omega)).1 hcl
    rw [slot_carry hroom] at hslot
    obtain ⟨hyr, x, hx, hxy⟩ := (Offset.mem_addresses_matchCarried hslot).1 hy
    have hxs := (Word.mem_addresses.1 hx).1
    have hys := (Word.mem_addresses.1 hyr).1
    exact ⟨Postings.mem_addresses.2 ⟨r, hr, hyr⟩, x, Postings.mem_addresses.2 ⟨l, hl, hx⟩, hxy,
      by omega⟩
  · intro h
    obtain ⟨hy, x, hx, hxy, hgroup⟩ := h
    obtain ⟨r, hr, hyr⟩ := Postings.mem_addresses.1 hy
    obtain ⟨l, hl, hxl⟩ := Postings.mem_addresses.1 hx
    have hxs := (Word.mem_addresses.1 hxl).1
    have hys := (Word.mem_addresses.1 hyr).1
    have hroom := hfits.slot_lt hl
    have hslot : l.slot + length.toNat / 16 + 1 = r.slot := by omega
    have hcarry := (mem_carries_firstPass hlefts hrights hfits.shifts).2 ⟨l, hl, ⟨r, hr, by omega⟩,
      (mem_carry_iff (by omega)).2 ⟨⟨x, hxl, by omega⟩, rfl⟩⟩
    refine ⟨_, (mem_secondPass hcarries hrights).2 ⟨_, hcarry, r, hr, ?_, rfl⟩,
      (Offset.mem_addresses_matchCarried hslot).2 ⟨hyr, x, hxl, hxy⟩⟩
    rw [slot_carry hroom]
    exact hslot

end Scalar

namespace Postings

variable {lefts rights : Postings} {length : UInt32}

/-- An intersection merges what the two passes of a merge join find. -/
theorem value_intersect (preferred : Strategy) (hlefts : lefts.Ascending)
    (hrights : rights.Ascending) (hfits : Offset.Fits length lefts) :
    (intersect preferred lefts rights length).value =
      merge (Scalar.firstPass (.ofLength length) lefts rights).matched
        (Scalar.secondPass (.ofLength length)
          (Scalar.firstPass (.ofLength length) lefts rights).carries rights) := by
  have hfirst := fun strategy : Strategy => strategy.firstPass_eq hlefts hrights hfits
  have hsecond : ∀ strategy : Strategy, strategy.secondPass (.ofLength length)
      (Scalar.firstPass (.ofLength length) lefts rights).carries rights =
        Scalar.secondPass (.ofLength length)
          (Scalar.firstPass (.ofLength length) lefts rights).carries rights :=
    fun strategy => strategy.secondPass_eq
      (Scalar.ascending_carries_firstPass hlefts hfits) hrights
  unfold intersect
  split
  · rename_i hempty
    have hnil : lefts = [] ∨ rights = [] := by
      simpa only [Bool.or_eq_true, List.isEmpty_iff] using hempty
    rw [Scalar.firstPass_of_nil _ hnil, Scalar.secondPass_of_nil _ (Or.inl rfl), merge_nil_left]
    rfl
  · simp only [Counted.value_bind, hfirst]
    split
    · -- without carries the second pass is left out, and it would have found nothing
      rename_i hnone
      rw [List.isEmpty_iff.1 hnone, Scalar.secondPass_of_nil _ (Or.inl rfl), merge_nil_right]
      rfl
    · simp only [Counted.value_bind, hsecond]
      rfl

/-- An intersection finds the right positions that stand the given length after a left one. -/
theorem mem_addresses_intersect (preferred : Strategy) (hlefts : lefts.Ascending)
    (hrights : rights.Ascending) (hfits : Offset.Fits length lefts) {y : Nat} :
    y ∈ addresses (intersect preferred lefts rights length).value ↔
      y ∈ rights.addresses ∧ ∃ x ∈ lefts.addresses, x + length.toNat = y := by
  rw [value_intersect preferred hlefts hrights hfits, mem_addresses_merge,
    Scalar.mem_addresses_matched hlefts hrights hfits,
    Scalar.mem_addresses_carried hlefts hrights hfits]
  constructor
  · rintro (⟨hy, x, hx, hxy, -⟩ | ⟨hy, x, hx, hxy, -⟩)
    · exact ⟨hy, x, hx, hxy⟩
    · exact ⟨hy, x, hx, hxy⟩
  · intro h
    obtain ⟨hy, x, hx, hxy⟩ := h
    -- a moved position stays in the group its word is moved to, or arrives in the next one
    have hgroup : y / 16 = x / 16 + length.toNat / 16 ∨
        y / 16 = x / 16 + length.toNat / 16 + 1 := by omega
    rcases hgroup with hgroup | hgroup
    · exact Or.inl ⟨hy, x, hx, hxy, hgroup⟩
    · exact Or.inr ⟨hy, x, hx, hxy, hgroup⟩

/-- An intersection yields a canonical list. -/
theorem canonical_intersect (preferred : Strategy) (hlefts : lefts.Ascending)
    (hrights : rights.Ascending) (hfits : Offset.Fits length lefts) :
    Canonical (intersect preferred lefts rights length).value := by
  rw [value_intersect preferred hlefts hrights hfits]
  refine ⟨ascending_merge (Scalar.ascending_matched_firstPass hrights) ?_, full_merge _ _⟩
  exact Scalar.ascending_secondPass hrights

/-- If no left position is moved to the next document, an intersection finds the right positions
that stand the given length after a left one in their document. -/
theorem address_mem_intersect (preferred : Strategy) (hlefts : lefts.Ascending)
    (hrights : rights.Ascending) (hfits : Offset.Fits length lefts)
    (hstay : ∀ document position, position < 2 ^ 20 → address document position ∈ lefts.addresses →
      position + length.toNat < 2 ^ 20)
    {document : DocumentId} {position : Nat} (hposition : position < 2 ^ 20) :
    address document position ∈ addresses (intersect preferred lefts rights length).value ↔
      address document position ∈ rights.addresses ∧
        ∃ earlier, earlier + length.toNat = position ∧
          address document earlier ∈ lefts.addresses := by
  rw [mem_addresses_intersect preferred hlefts hrights hfits]
  refine and_congr_right fun _ => ⟨?_, ?_⟩
  · intro h
    obtain ⟨x, hx, hsum⟩ := h
    obtain ⟨other, earlier, hearlier, rfl⟩ := exists_address_of_mem hx
    have hroom := hstay other earlier hearlier hx
    have heq : address other (earlier + length.toNat) = address document position := by
      rw [← hsum, address, address]
      omega
    obtain ⟨rfl, hsame⟩ := (address_inj hroom hposition).1 heq
    exact ⟨earlier, hsame, hx⟩
  · intro h
    obtain ⟨earlier, rfl, hearlier⟩ := h
    refine ⟨address document earlier, hearlier, ?_⟩
    rw [address, address]
    omega

/-- **Intersecting is shifting.** For lists with ascending keys the result is canonical, its
addresses are the right ones that are a left one moved by the length, and where no left position
leaves its document these are the right positions that stand the length after a left one. The
passes may follow any strategies. -/
theorem intersect_shift (preferred : Strategy) {lefts rights : Postings} {length : UInt32}
    (hlefts : lefts.Ascending) (hrights : rights.Ascending) (hfits : Offset.Fits length lefts) :
    Canonical (intersect preferred lefts rights length).value ∧
      (∀ y, y ∈ addresses (intersect preferred lefts rights length).value ↔
        y ∈ rights.addresses ∧ ∃ x ∈ lefts.addresses, x + length.toNat = y) ∧
      ((∀ document position, position < 2 ^ 20 →
          address document position ∈ lefts.addresses → position + length.toNat < 2 ^ 20) →
        ∀ document position, position < 2 ^ 20 →
          (address document position ∈ addresses (intersect preferred lefts rights length).value ↔
            address document position ∈ rights.addresses ∧
              ∃ earlier, earlier + length.toNat = position ∧
                address document earlier ∈ lefts.addresses)) ∧
      ∀ first second : Strategy,
        merge (first.firstPass (.ofLength length) lefts rights).matched
            (second.secondPass (.ofLength length)
              (first.firstPass (.ofLength length) lefts rights).carries rights) =
          (intersect preferred lefts rights length).value := by
  refine ⟨canonical_intersect preferred hlefts hrights hfits,
    fun y => mem_addresses_intersect preferred hlefts hrights hfits,
    fun hstay document position hposition =>
      address_mem_intersect preferred hlefts hrights hfits hstay hposition,
    fun first second => ?_⟩
  rw [value_intersect preferred hlefts hrights hfits, first.firstPass_eq hlefts hrights hfits,
    second.secondPass_eq (Scalar.ascending_carries_firstPass hlefts hfits) hrights]

/-- The last position of a group, followed by the first one of the next group. -/
theorem intersect_shift_across_groups :
    address 3 16 ∈ addresses
      (intersect .gallop [Word.ofPosition 3 15] [Word.ofPosition 3 16] 1).value := by
  have h := intersect_shift .gallop (List.pairwise_singleton _ (Word.ofPosition 3 15))
    (List.pairwise_singleton _ (Word.ofPosition 3 16))
    (show Offset.Fits 1 [Word.ofPosition 3 15] by
      intro word hword
      rw [List.mem_singleton.1 hword]
      decide)
  refine (h.2.1 _).2 ⟨by decide, address 3 15, by decide, rfl⟩

end Postings
end Concordance
