import Concordance.Proofs.Intersection.Shift

/-!
# Intersections at the end of a document

Positions stop one group short of the end of a document, so that an offset of up to a group never
moves one into the next document. A longer offset may: a position close to the last one is then
found among the first positions of the document after it. What an intersection finds in either case
is told by `Postings.intersect_within_documents`.
-/

namespace Concordance

/-- No word of a list belongs to the last document there can be. -/
def Postings.BelowLast (words : Postings) : Prop :=
  ∀ word ∈ words, word.document.toNat < 2 ^ 32 - 1

/-- Whether a list has no word of the last document can be checked. -/
instance (words : Postings) : Decidable words.BelowLast :=
  List.decidableBAll (fun word : Word => word.document.toNat < 2 ^ 32 - 1) words

/-- All positions of a list are ones that are indexed. -/
def Postings.WithinLimit (words : Postings) : Prop :=
  ∀ x ∈ words.addresses, x % 2 ^ 20 < Position.limit.toNat

/-- Whether the positions of a list are below the limit can be checked. -/
instance (words : Postings) : Decidable words.WithinLimit :=
  List.decidableBAll (fun x => x % 2 ^ 20 < Position.limit.toNat) words.addresses

namespace Postings

variable {lefts rights : Postings} {length : UInt32}

/-- Documents before the last one leave room for an offset of less than a document. -/
theorem BelowLast.fits (h : BelowLast lefts) (hlength : length.toNat < 2 ^ 20) :
    Offset.Fits length lefts := by
  intro word hword
  have hdocument := h word hword
  rw [Word.toNat_document] at hdocument
  have hsplit := word.toNat_eq_slot
  omega

/-- The position of an address within the limit is below the limit. -/
theorem WithinLimit.lt (h : WithinLimit lefts) {document : DocumentId} {position : Nat}
    (hposition : position < 2 ^ 20) (hx : address document position ∈ lefts.addresses) :
    position < Position.limit.toNat := by
  have hmod : address document position % 2 ^ 20 = position := by
    rw [address]
    omega
  exact hmod ▸ h _ hx

/-- A position is moved to a later one of its document, or to one of the next document. The latter
lies more than a group below the offset. -/
theorem address_add_eq_iff {document other : DocumentId} {position earlier offset : Nat}
    (hposition : position < 2 ^ 20) (hearlier : earlier < Position.limit.toNat)
    (hoffset : offset < 2 ^ 20) :
    address other earlier + offset = address document position ↔
      (other = document ∧ earlier + offset = position) ∨
        (other.toNat + 1 = document.toNat ∧ earlier + offset = position + 2 ^ 20 ∧
          position + 16 < offset) := by
  have hlimit : Position.limit.toNat = 2 ^ 20 - 16 := by decide
  rw [← UInt32.toNat_inj, address, address]
  omega

/-- What an intersection finds at a position of a document. -/
theorem mem_intersect_iff (preferred : Strategy) (hlefts : lefts.Ascending)
    (hrights : rights.Ascending) (hdocuments : lefts.BelowLast) (hlimit : lefts.WithinLimit)
    (hlength : length.toNat < 2 ^ 20) {document : DocumentId} {position : Nat}
    (hposition : position < 2 ^ 20) :
    address document position ∈ addresses (intersect preferred lefts rights length).value ↔
      address document position ∈ rights.addresses ∧
        ((∃ earlier, earlier + length.toNat = position ∧
            address document earlier ∈ lefts.addresses) ∨
          position + 16 < length.toNat ∧ ∃ previous earlier, previous.toNat + 1 = document.toNat ∧
            earlier + length.toNat = position + 2 ^ 20 ∧
            address previous earlier ∈ lefts.addresses) := by
  rw [mem_addresses_intersect preferred hlefts hrights (hdocuments.fits hlength)]
  refine and_congr_right fun _ => ⟨?_, ?_⟩
  · intro h
    obtain ⟨x, hx, hsum⟩ := h
    obtain ⟨other, earlier, hearlier, rfl⟩ := exists_address_of_mem hx
    rcases (address_add_eq_iff hposition (hlimit.lt hearlier hx) hlength).1 hsum with
      ⟨rfl, hsame⟩ | ⟨hnext, hwrapped, hshort⟩
    · exact Or.inl ⟨earlier, hsame, hx⟩
    · exact Or.inr ⟨hshort, other, earlier, hnext, hwrapped, hx⟩
  · rintro (⟨earlier, hsame, hx⟩ | ⟨hshort, previous, earlier, hnext, hwrapped, hx⟩)
    · have hearlier := hlimit.lt (show earlier < 2 ^ 20 by omega) hx
      exact ⟨_, hx, (address_add_eq_iff hposition hearlier hlength).2 (Or.inl ⟨rfl, hsame⟩)⟩
    · have hearlier := hlimit.lt (show earlier < 2 ^ 20 by omega) hx
      exact ⟨_, hx, (address_add_eq_iff hposition hearlier hlength).2
        (Or.inr ⟨hnext, hwrapped, hshort⟩)⟩

/-- **Only an offset of more than a group leaves a document.** What an intersection finds at a
position stands the length after a left position of the same document, unless the length is greater
than the position by more than a group. There it also finds what stands the length after a left
position of the document before, as if its positions went on in the next document. -/
theorem intersect_within_documents (preferred : Strategy) (hlefts : lefts.Ascending)
    (hrights : rights.Ascending) (hdocuments : lefts.BelowLast) (hlimit : lefts.WithinLimit)
    (hlength : length.toNat < 2 ^ 20) {document : DocumentId} {position : Nat}
    (hposition : position < 2 ^ 20) :
    (length.toNat ≤ position + 16 →
      (address document position ∈ addresses (intersect preferred lefts rights length).value ↔
        address document position ∈ rights.addresses ∧ length.toNat ≤ position ∧
          address document (position - length.toNat) ∈ lefts.addresses)) ∧
    (position + 16 < length.toNat →
      (address document position ∈ addresses (intersect preferred lefts rights length).value ↔
        address document position ∈ rights.addresses ∧
          ∃ previous, previous.toNat + 1 = document.toNat ∧
            address previous (position + 2 ^ 20 - length.toNat) ∈ lefts.addresses)) := by
  refine ⟨fun hnear => ?_, fun hfar => ?_⟩
  · rw [mem_intersect_iff preferred hlefts hrights hdocuments hlimit hlength hposition]
    refine and_congr_right fun _ => ⟨?_, fun ⟨hle, hx⟩ => Or.inl ⟨_, by omega, hx⟩⟩
    rintro (⟨earlier, rfl, hx⟩ | ⟨hshort, -⟩)
    · rw [Nat.add_sub_cancel]
      exact ⟨Nat.le_add_left _ _, hx⟩
    · omega
  · rw [mem_intersect_iff preferred hlefts hrights hdocuments hlimit hlength hposition]
    refine and_congr_right fun _ => ⟨?_, fun ⟨previous, hnext, hx⟩ =>
      Or.inr ⟨hfar, previous, _, hnext, by omega, hx⟩⟩
    rintro (⟨earlier, rfl, -⟩ | ⟨-, previous, earlier, hnext, hwrapped, hx⟩)
    · omega
    · rw [← hwrapped, Nat.add_sub_cancel]
      exact ⟨previous, hnext, hx⟩

/-- The last position that is indexed of a document. -/
def lastPlace : Postings :=
  [Word.ofPosition 0 1048559]

/-- The first two positions of the next document. -/
def nextPlaces : Postings :=
  [Word.ofPosition 1 0 ||| Word.ofPosition 1 1]

/-- With an offset of seventeen, the first position of the next document is found, and the second
one is not. -/
theorem intersect_within_documents_at_end :
    lastPlace.Ascending ∧ nextPlaces.Ascending ∧ lastPlace.BelowLast ∧ lastPlace.WithinLimit ∧
      address 1 0 ∈ addresses (intersect .scalar lastPlace nextPlaces 17).value ∧
      address 1 1 ∉ addresses (intersect .scalar lastPlace nextPlaces 17).value := by
  have hascending : lastPlace.Ascending ∧ nextPlaces.Ascending :=
    ⟨List.pairwise_singleton _ _, List.pairwise_singleton _ _⟩
  have hbounds : lastPlace.BelowLast ∧ lastPlace.WithinLimit := by decide
  have hfinds := fun position (hposition : position < 2 ^ 20) =>
    @intersect_within_documents lastPlace nextPlaces 17 .scalar hascending.1 hascending.2 hbounds.1
      hbounds.2 (by decide) 1 position hposition
  refine ⟨hascending.1, hascending.2, hbounds.1, hbounds.2, ?_, fun h => ?_⟩
  · exact ((hfinds 0 (by decide)).2 (by decide)).2 ⟨by decide, 0, rfl, by decide⟩
  · obtain ⟨-, hle, -⟩ := ((hfinds 1 (by decide)).1 (by decide)).1 h
    exact absurd hle (by decide)

/-- A position is found although its document has no left position: the one of the document before
stands seventeen positions before it if the documents are laid end to end. -/
theorem intersect_crosses_documents :
    lastPlace.Ascending ∧ nextPlaces.Ascending ∧ lastPlace.BelowLast ∧ nextPlaces.BelowLast ∧
      lastPlace.WithinLimit ∧ nextPlaces.WithinLimit ∧
      address 1 0 ∈ addresses (intersect .scalar lastPlace nextPlaces 17).value ∧
      ¬ 17 ≤ 0 ∧ ∀ position < 2 ^ 20, address 1 position ∉ lastPlace.addresses := by
  have hascending : lastPlace.Ascending ∧ nextPlaces.Ascending :=
    ⟨List.pairwise_singleton _ _, List.pairwise_singleton _ _⟩
  refine ⟨hascending.1, hascending.2, by decide, by decide, by decide, by decide, ?_, by decide, ?_⟩
  · refine (mem_addresses_intersect .scalar hascending.1 hascending.2 (by decide)).2
      ⟨by decide, address 0 1048559, by decide, rfl⟩
  · intro position _ hx
    have hone : address 1 position = 2 ^ 20 + position := rfl
    have hlast : lastPlace.addresses = [1048559] := by decide
    rw [hlast, List.mem_singleton] at hx
    omega

end Postings
end Concordance
