import Concordance.Proofs.Posting.Documents

/-!
# Counting set bits

The set bits of a document are those of all its words. In a list with ascending keys they are as
many as the positions of the document that have an address (`setBits_eq_length`).
-/

namespace Concordance

namespace Word

/-- Every set bit of a word has an address. -/
@[simp] theorem length_addresses (word : Word) : word.addresses.length = word.count := by
  rw [addresses, List.length_map, count]

/-- The addresses of a word ascend. -/
theorem pairwise_addresses (word : Word) : word.addresses.Pairwise (· < ·) := by
  refine List.pairwise_map.2 (List.Pairwise.imp ?_ (List.pairwise_lt_range.filter _))
  intro a b hlt
  exact Nat.add_lt_add_left hlt _

/-- A bitmap has at most sixteen set bits. -/
theorem count_le (word : Word) : word.count ≤ 16 :=
  Nat.le_trans (List.length_filter_le _ _) (Nat.le_of_eq List.length_range)

/-! ## Counting in 32 bits -/

/-- The lowest four bits are counted by a digit of a number. -/
theorem toNat_lowOnes (word : Word) : word.lowOnes.toNat =
    (List.range 4).countP fun offset => word.toNat.testBit offset := by
  have hdigits : ∀ low < 16,
      (((0x4332322132212110 : UInt64) >>> (4 * .ofNat low)) &&& 15).toUInt32.toNat =
        (List.range 4).countP fun offset => low.testBit offset := by decide
  have hlow : word &&& 15 = .ofNat (word.toNat % 16) := by
    rw [← UInt64.toNat_inj, UInt64.toNat_and,
      UInt64.toNat_ofNat_of_lt' (Nat.lt_trans (Nat.mod_lt _ (by decide)) (by decide))]
    exact Nat.and_two_pow_sub_one_eq_mod word.toNat 4
  rw [lowOnes, hlow, hdigits _ (Nat.mod_lt _ (by decide))]
  refine List.countP_congr fun offset hoffset => ?_
  rw [Nat.testBit_mod_two_pow word.toNat 4, decide_eq_true (List.mem_range.1 hoffset),
    Bool.true_and]

/-- Four bits from one on are counted like the lowest ones. -/
theorem toNat_lowOnes_shiftRight (word : Word) {start : Nat} (h : start < 64) :
    (word >>> .ofNat start).lowOnes.toNat =
      ((List.range 4).map (start + ·)).countP fun offset => word.toNat.testBit offset := by
  have hstart : (UInt64.ofNat start).toNat % 64 = start := by
    rw [UInt64.toNat_ofNat_of_lt' (Nat.lt_trans h (by decide)), Nat.mod_eq_of_lt h]
  rw [toNat_lowOnes, List.countP_map, UInt64.toNat_shiftRight, hstart]
  exact List.countP_congr fun offset _ => by rw [Nat.testBit_shiftRight]; rfl

/-- The set bits of the bitmap are counted in 32 bits. -/
theorem toNat_ones (word : Word) : word.ones.toNat = word.count := by
  have hcount : word.count =
      (List.range (4 + 4 + 4 + 4)).countP fun offset => word.toNat.testBit offset := by
    rw [count, offsets, ← List.countP_eq_length_filter]
    refine List.countP_congr fun offset hoffset => ?_
    rw [testBit_bitmap word (List.mem_range.1 hoffset)]
  have hle : ∀ word : Word, word.lowOnes.toNat ≤ 4 := fun word => by
    rw [toNat_lowOnes]
    exact List.countP_le_length
  have h4 : (word >>> 4).lowOnes.toNat = _ := toNat_lowOnes_shiftRight word (by decide)
  have h8 : (word >>> 8).lowOnes.toNat = _ := toNat_lowOnes_shiftRight word (by decide)
  have h12 : (word >>> 12).lowOnes.toNat = _ := toNat_lowOnes_shiftRight word (by decide)
  rw [hcount, List.range_add, List.range_add, List.range_add, List.countP_append,
    List.countP_append, List.countP_append, ← toNat_lowOnes, ← h4, ← h8, ← h12, ones,
    UInt32.toNat_add, UInt32.toNat_add, UInt32.toNat_add]
  have hfirst := hle word
  have hsecond := hle (word >>> 4)
  have hthird := hle (word >>> 8)
  have hlast := hle (word >>> 12)
  omega

end Word

namespace Postings

variable {words : Postings}

/-- The number of set bits in the words of a document. -/
def setBits (words : Postings) (document : DocumentId) : Nat :=
  ((words.filter fun word => word.document = document).map Word.count).sum

/-- The addresses of a list with ascending keys ascend. -/
theorem Ascending.pairwise_addresses (h : words.Ascending) : words.addresses.Pairwise (· < ·) := by
  refine List.pairwise_flatMap.2 ⟨fun word _ => word.pairwise_addresses, h.imp ?_⟩
  intro first second hlt x hx y hy
  have hslot := Word.key_lt_iff.1 hlt
  have hfirst := (Word.mem_addresses.1 hx).1
  have hsecond := (Word.mem_addresses.1 hy).1
  omega

/-- The addresses in the words of a document are those of its positions. -/
theorem mem_addresses_filter_document {document : DocumentId} {x : Nat} :
    x ∈ addresses (words.filter fun word => word.document = document) ↔
      ∃ p < 2 ^ 20, x = address document p ∧ x ∈ words.addresses := by
  rw [mem_addresses]
  constructor
  · intro h
    obtain ⟨word, hword, hx⟩ := h
    obtain ⟨hmem, hdocument⟩ := List.mem_filter.1 hword
    refine ⟨x % 2 ^ 20, Nat.mod_lt x (by omega), ?_, mem_addresses.2 ⟨word, hmem, hx⟩⟩
    rw [← of_decide_eq_true hdocument]
    exact Word.document_of_mem_addresses hx
  · intro h
    obtain ⟨p, hp, hsame, hx⟩ := h
    obtain ⟨word, hword, hmem⟩ := mem_addresses.1 hx
    have heq := (Word.document_of_mem_addresses hmem).symm.trans hsame
    have hdocument := ((address_inj (Nat.mod_lt _ (by omega)) hp).1 heq).1
    exact ⟨word, List.mem_filter.2 ⟨hword, decide_eq_true hdocument⟩, hmem⟩

/-- The set bits of a document are as many as its words have addresses. -/
theorem length_addresses_filter (words : Postings) (document : DocumentId) :
    (addresses (words.filter fun word => word.document = document)).length =
      words.setBits document := by
  rw [addresses, List.length_flatMap, setBits]
  simp only [Word.length_addresses]

/-- A document of a list with ascending keys has at most one set bit for each of its positions. -/
theorem Ascending.setBits_le (h : words.Ascending) (document : DocumentId) :
    words.setBits document ≤ 2 ^ 20 := by
  have hnodup : (addresses (words.filter fun word => word.document = document)).Nodup :=
    (Ascending.pairwise_addresses (List.Pairwise.filter _ h)).imp Nat.ne_of_lt
  have hsubset : addresses (words.filter fun word => word.document = document) ⊆
      (List.range (2 ^ 20)).map (address document) := by
    intro x hx
    obtain ⟨p, hp, rfl, -⟩ := mem_addresses_filter_document.1 hx
    exact List.mem_map_of_mem (List.mem_range.2 hp)
  have hle := (hnodup.subperm hsubset).length_le
  rwa [length_addresses_filter, List.length_map, List.length_range] at hle

/-- A document has as many set bits as it has positions with an address. -/
theorem setBits_eq_length (h : words.Ascending) {document : DocumentId} {positions : List Nat}
    (hnodup : positions.Nodup) (hlimit : ∀ p ∈ positions, p < 2 ^ 20)
    (hmem : ∀ p < 2 ^ 20, address document p ∈ words.addresses ↔ p ∈ positions) :
    words.setBits document = positions.length := by
  have hfiltered : Ascending (words.filter fun word => word.document = document) :=
    List.Pairwise.filter _ h
  have hinside : (addresses (words.filter fun word => word.document = document)).Nodup :=
    hfiltered.pairwise_addresses.imp Nat.ne_of_lt
  have hpositions : (positions.map (address document)).Nodup := by
    refine List.pairwise_map.2 (hnodup.imp ?_)
    intro p q hne heq
    exact hne (Nat.add_left_cancel heq)
  have hperm : (addresses (words.filter fun word => word.document = document)).Perm
      (positions.map (address document)) := by
    refine (List.perm_ext_iff_of_nodup hinside hpositions).2 fun x => ?_
    rw [mem_addresses_filter_document, List.mem_map]
    constructor
    · intro hfound
      obtain ⟨p, hp, rfl, hx⟩ := hfound
      exact ⟨p, (hmem p hp).1 hx, rfl⟩
    · intro hfound
      obtain ⟨p, hp, rfl⟩ := hfound
      exact ⟨p, hlimit p hp, rfl, (hmem p (hlimit p hp)).2 hp⟩
  have hlength := hperm.length_eq
  rwa [length_addresses_filter, List.length_map] at hlength

/-! ## Frequencies -/

/-- A word of the document adds its set bits. -/
theorem setBits_cons_of_eq {word : Word} {document : DocumentId} (words : Postings)
    (h : word.document = document) :
    setBits (word :: words) document = word.count + setBits words document := by
  simp [setBits, h]

/-- A word of another document adds nothing. -/
theorem setBits_cons_of_ne {word : Word} {document : DocumentId} (words : Postings)
    (h : word.document ≠ document) :
    setBits (word :: words) document = setBits words document := by
  simp [setBits, h]

/-- A document has at most sixteen set bits for each word of the list. -/
theorem setBits_le (words : Postings) (document : DocumentId) :
    words.setBits document ≤ 16 * words.length := by
  induction words with
  | nil => exact Nat.le_refl 0
  | cons word rest ih =>
      rw [List.length_cons]
      by_cases h : word.document = document
      · have hcount := word.count_le
        rw [setBits_cons_of_eq rest h]
        omega
      · rw [setBits_cons_of_ne rest h]
        omega

/-- A word changes nothing about other documents. -/
theorem map_setBits_cons {word : Word} {documents : List DocumentId} (words : Postings)
    (h : word.document ∉ documents) :
    (documents.map fun document => (document, setBits (word :: words) document)) =
      documents.map fun document => (document, setBits words document) := by
  refine List.map_congr_left fun document hdocument => ?_
  rw [setBits_cons_of_ne words fun heq => h (heq ▸ hdocument)]

/-- A document without words has no set bits. -/
theorem setBits_eq_zero {document : DocumentId} (h : ∀ word ∈ words, word.document ≠ document) :
    words.setBits document = 0 := by
  rw [setBits, List.filter_eq_nil_iff.2 fun word hword => by simpa using h word hword]
  rfl

/-- A document is listed once for a run of its words. -/
theorem documents_cons_cons (first second : Word) (rest : Postings) :
    documents (first :: second :: rest) =
      if first.document = second.document then documents (second :: rest)
      else first.document :: documents (second :: rest) := by
  rw [documents, List.map_cons, List.map_cons, collapse]
  rfl

/-- The first document of a list is that of its first word. -/
theorem documents_cons_eq (word : Word) (words : Postings) :
    ∃ later, documents (word :: words) = word.document :: later := by
  induction words generalizing word with
  | nil => exact ⟨[], rfl⟩
  | cons second rest ih =>
      rw [documents_cons_cons]
      split
      · rename_i h
        rw [h]
        exact ih second
      · exact ⟨_, rfl⟩

/-- The frequency of a document is the number of its set bits, if the words do not descend by
document. -/
theorem frequencies_eq (h : (words.map Word.document).Pairwise (· ≤ ·)) :
    words.frequencies = words.documents.map fun document => (document, words.setBits document) := by
  induction words with
  | nil => rfl
  | cons word rest ih =>
      cases rest with
      | nil => simp [frequencies, documents, collapse, setBits]
      | cons second rest =>
          rw [List.map_cons, List.pairwise_cons] at h
          obtain ⟨hfirst, hrest⟩ := h
          obtain ⟨later, hlater⟩ := documents_cons_eq second rest
          have hsorted : (second.document :: later).Pairwise (· < ·) :=
            hlater ▸ pairwise_collapse hrest
          have hbehind : second.document ∉ later := fun hmem =>
            UInt32.lt_irrefl _ ((List.pairwise_cons.1 hsorted).1 _ hmem)
          have hfrequencies := ih hrest
          rw [hlater, List.map_cons] at hfrequencies
          rw [frequencies, hfrequencies, documents_cons_cons, hlater]
          dsimp only
          split
          · rename_i heq
            rw [List.map_cons, setBits_cons_of_eq (second :: rest) heq,
              map_setBits_cons (second :: rest) (heq ▸ hbehind)]
          · rename_i hne
            -- the words behind are of the second document or of later ones
            have hnone : word.document ∉ documents (second :: rest) := by
              intro hmem
              rw [hlater] at hmem
              have hlt : word.document < second.document :=
                UInt32.lt_of_le_of_ne (hfirst _ List.mem_cons_self) hne
              rcases List.mem_cons.1 hmem with heq | hmem
              · exact hne heq
              · exact UInt32.lt_asymm hlt ((List.pairwise_cons.1 hsorted).1 _ hmem)
            have hzero : setBits (second :: rest) word.document = 0 :=
              setBits_eq_zero fun other hother heq => hnone (mem_documents.2 ⟨other, hother, heq⟩)
            rw [← hlater, List.map_cons, map_setBits_cons (second :: rest) hnone,
              setBits_cons_of_eq (second :: rest) rfl, hzero, hlater, List.map_cons, Nat.add_zero]

end Postings
end Concordance
