import Concordance.Proofs.Posting.Counts
import Concordance.Proofs.Posting.Positions

/-!
# Lists built from positions

The words of the positions of one document ascend if the positions do not descend, and the words of
documents that are pushed in order follow each other (`Pushable.ascending`). A list built this way
answers for its documents, frequencies and positions what was pushed (`pushed_exact`).
-/

namespace Concordance

namespace Word

variable {document : DocumentId} {position later : Position}

/-- The slots of positions follow the positions. -/
theorem slot_ofPosition_le (hlater : later < Position.limit) (h : position ≤ later) :
    (ofPosition document position).slot ≤ (ofPosition document later).slot := by
  have hle := UInt32.le_iff_toNat_le.1 h
  rw [slot_ofPosition hlater, slot_ofPosition (UInt32.lt_of_le_of_lt h hlater)]
  omega

end Word

namespace Postings

variable {document : DocumentId} {position : Position} {positions : List Position}
  {opened words : Postings} {pushed : List (DocumentId × List Position)}

/-! ## Words of one document -/

/-- Words that were opened one after another, held last first. -/
def Descending (opened : Postings) : Prop :=
  opened.Pairwise fun later earlier => earlier.slot < later.slot

/-- The words that are being built stay in descending order if no position goes back. -/
theorem Descending.record (h : Descending opened) (hlimit : position < Position.limit)
    (hbound : ∀ word ∈ opened, word.slot ≤ (Word.ofPosition document position).slot) :
    Descending (record document opened position) ∧
      ∀ word ∈ record document opened position,
        word.slot ≤ (Word.ofPosition document position).slot := by
  cases opened with
  | nil =>
      refine ⟨List.pairwise_singleton _ _, fun word hword => ?_⟩
      rw [List.mem_singleton.1 hword]
  | cons last earlier =>
      obtain ⟨hlast, hearlier⟩ := List.pairwise_cons.1 h
      have hle := hbound last List.mem_cons_self
      rw [Postings.record]
      split
      · rename_i hkey
        have hsame := (Word.key_eq_group_iff hlimit).1 hkey
        have hslot : (last ||| Word.ofOffset position.offset).slot = last.slot := by
          rw [Word.or_ofOffset_eq hkey, Word.slot_or hsame]
        refine ⟨List.pairwise_cons.2 ⟨fun word hword => ?_, hearlier⟩, fun word hword => ?_⟩
        · rw [hslot]
          exact hlast word hword
        · rcases List.mem_cons.1 hword with rfl | hword
          · rw [hslot]
            exact hle
          · exact hbound word (List.mem_cons_of_mem _ hword)
      · rename_i hkey
        -- the last word is of an earlier group, and all others are of still earlier ones
        have hlt : last.slot < (Word.ofPosition document position).slot :=
          Nat.lt_of_le_of_ne hle fun heq => hkey ((Word.key_eq_group_iff hlimit).2 heq)
        refine ⟨List.pairwise_cons.2 ⟨fun word hword => ?_, h⟩, fun word hword => ?_⟩
        · rcases List.mem_cons.1 hword with rfl | hword
          · exact hlt
          · exact Nat.lt_trans (hlast word hword) hlt
        · rcases List.mem_cons.1 hword with rfl | hword
          · exact Nat.le_refl _
          · exact hbound word hword

/-- Positions that do not descend open words that ascend. -/
theorem Descending.foldl_record (hsorted : positions.Pairwise (· ≤ ·))
    (hlimit : ∀ p ∈ positions, p < Position.limit) (h : Descending opened)
    (hbound : ∀ p ∈ positions, ∀ word ∈ opened, word.slot ≤ (Word.ofPosition document p).slot) :
    Descending (positions.foldl (Postings.record document) opened) := by
  induction positions generalizing opened with
  | nil => exact h
  | cons position rest ih =>
      obtain ⟨hfirst, hrest⟩ := List.pairwise_cons.1 hsorted
      obtain ⟨hrecorded, hbelow⟩ := h.record (hlimit position List.mem_cons_self)
        (hbound position List.mem_cons_self)
      have hlater : ∀ p ∈ rest, p < Position.limit := fun p hp =>
        hlimit p (List.mem_cons_of_mem _ hp)
      rw [List.foldl_cons]
      refine ih hrest hlater hrecorded fun p hp word hword => ?_
      exact Nat.le_trans (hbelow word hword)
        (Word.slot_ofPosition_le (hlater p hp) (hfirst p hp))

/-- The words of positions that do not descend have ascending keys. -/
theorem ascending_ofPositions (hsorted : positions.Pairwise (· ≤ ·))
    (hlimit : ∀ p ∈ positions, p < Position.limit) :
    Ascending (ofPositions document positions) := by
  have hdescending : Descending (positions.foldl (record document) []) :=
    Descending.foldl_record hsorted hlimit List.Pairwise.nil fun _ _ _ hword => by cases hword
  rw [ofPositions, Ascending, List.pairwise_reverse]
  exact hdescending.imp Word.key_lt_iff.2

/-- The words of a document's positions are words of the document. -/
theorem document_of_mem_ofPositions (hlimit : ∀ p ∈ positions, p < Position.limit) {word : Word}
    (hword : word ∈ ofPositions document positions) : word.document = document := by
  obtain ⟨x, hx⟩ := Word.bitmap_ne_zero_iff.1 (full_ofPositions hlimit word hword)
  obtain ⟨p, hp, rfl⟩ :=
    (mem_addresses_ofPositions hlimit).1 (mem_addresses.2 ⟨word, hword, hx⟩)
  have hlt : p.toNat < 2 ^ 20 := Nat.lt_trans (UInt32.lt_iff_toNat_lt.1 (hlimit p hp)) (by decide)
  have heq := Word.document_of_mem_addresses hx
  exact ((address_inj hlt (Nat.mod_lt _ (by omega))).1 heq).1.symm

/-! ## Words of several documents -/

/-- Push the positions of documents one after another. -/
def pushAll (words : Postings) (pushed : List (DocumentId × List Position)) : Postings :=
  pushed.foldl (fun words entry => words.push entry.1 entry.2) words

/-- What was pushed follows in the order in which it was. -/
theorem pushAll_eq_append (words : Postings) (pushed : List (DocumentId × List Position)) :
    words.pushAll pushed = words ++ pushed.flatMap fun entry => ofPositions entry.1 entry.2 := by
  induction pushed generalizing words with
  | nil => exact (List.append_nil words).symm
  | cons entry pushed ih =>
      have hstep : words.pushAll (entry :: pushed) =
          (words.push entry.1 entry.2).pushAll pushed := rfl
      rw [hstep, ih, push, List.append_assoc, List.flatMap_cons]

/-- The entries of documents with at least one position. -/
def withPositions (pushed : List (DocumentId × List Position)) :
    List (DocumentId × List Position) :=
  pushed.filter fun entry => entry.2 ≠ []

/-- Documents that ascend, each with positions that do not descend and have groups of their own. -/
structure Pushable (pushed : List (DocumentId × List Position)) : Prop where
  documents : (pushed.map Prod.fst).Pairwise (· < ·)
  sorted : ∀ entry ∈ pushed, entry.2.Pairwise (· ≤ ·)
  limit : ∀ entry ∈ pushed, ∀ p ∈ entry.2, p < Position.limit

/-- The words that were pushed are those of the single entries. -/
theorem mem_pushAll {word : Word} :
    word ∈ pushAll [] pushed ↔ ∃ entry ∈ pushed, word ∈ ofPositions entry.1 entry.2 := by
  rw [pushAll_eq_append, List.nil_append, List.mem_flatMap]

namespace Pushable

variable (h : Pushable pushed)
include h

/-- The keys ascend within a document and from each document to the next. -/
theorem ascending : Ascending (pushAll [] pushed) := by
  rw [pushAll_eq_append, List.nil_append]
  refine List.pairwise_flatMap.2
    ⟨fun entry hentry => ascending_ofPositions (h.sorted entry hentry) (h.limit entry hentry), ?_⟩
  refine (List.pairwise_map.1 h.documents).imp_of_mem ?_
  intro first second hfirst hsecond hlt word hword other hother
  have hword' := document_of_mem_ofPositions (h.limit first hfirst) hword
  have hother' := document_of_mem_ofPositions (h.limit second hsecond) hother
  rw [← hword', ← hother', UInt32.lt_iff_toNat_lt, Word.toNat_document,
    Word.toNat_document] at hlt
  rw [Word.key_lt_iff]
  omega

/-- No word that was pushed is empty. -/
theorem full : Full (pushAll [] pushed) := by
  intro word hword
  obtain ⟨entry, hentry, hword⟩ := mem_pushAll.1 hword
  exact full_ofPositions (h.limit entry hentry) word hword

/-- The set bits are those of the positions. -/
theorem mem_addresses {x : Nat} :
    x ∈ addresses (pushAll [] pushed) ↔
      ∃ entry ∈ pushed, ∃ p ∈ entry.2, x = address entry.1 p.toNat := by
  rw [Postings.mem_addresses]
  constructor
  · intro hfound
    obtain ⟨word, hword, hx⟩ := hfound
    obtain ⟨entry, hentry, hword⟩ := mem_pushAll.1 hword
    exact ⟨entry, hentry, (mem_addresses_ofPositions (h.limit entry hentry)).1
      (Postings.mem_addresses.2 ⟨word, hword, hx⟩)⟩
  · intro hfound
    obtain ⟨entry, hentry, hx⟩ := hfound
    obtain ⟨word, hword, hx⟩ := Postings.mem_addresses.1
      ((mem_addresses_ofPositions (h.limit entry hentry)).2 hx)
    exact ⟨word, mem_pushAll.2 ⟨entry, hentry, hword⟩, hx⟩

/-- A document has the addresses of its own positions. -/
theorem address_mem_iff {entry : DocumentId × List Position} (hentry : entry ∈ pushed) {p : Nat}
    (hp : p < 2 ^ 20) :
    address entry.1 p ∈ addresses (pushAll [] pushed) ↔ p ∈ entry.2.map UInt32.toNat := by
  rw [h.mem_addresses, List.mem_map]
  constructor
  · intro hfound
    obtain ⟨other, hother, q, hq, heq⟩ := hfound
    have hlt : q.toNat < 2 ^ 20 :=
      Nat.lt_trans (UInt32.lt_iff_toNat_lt.1 (h.limit other hother q hq)) (by decide)
    obtain ⟨hdocument, rfl⟩ := (address_inj hp hlt).1 heq
    have hsame : entry = other :=
      List.inj_on_of_nodup_map (h.documents.imp UInt32.ne_of_lt) hentry hother hdocument
    exact ⟨q, hsame ▸ hq, rfl⟩
  · intro hfound
    obtain ⟨q, hq, rfl⟩ := hfound
    exact ⟨entry, hentry, q, hq, rfl⟩

/-- A document has as many set bits as it has different positions. -/
theorem setBits_eq_card {entry : DocumentId × List Position} (hentry : entry ∈ pushed) :
    setBits (pushAll [] pushed) entry.1 = entry.2.toFinset.card := by
  have hnodup : (entry.2.dedup.map UInt32.toNat).Nodup :=
    entry.2.nodup_dedup.map fun _ _ => UInt32.toNat_inj.1
  rw [setBits_eq_length h.ascending hnodup, List.length_map, List.card_toFinset]
  · intro p hp
    obtain ⟨q, hq, rfl⟩ := List.mem_map.1 hp
    exact Nat.lt_trans
      (UInt32.lt_iff_toNat_lt.1 (h.limit entry hentry q (List.mem_dedup.1 hq))) (by decide)
  · intro p hp
    rw [h.address_mem_iff hentry hp, List.mem_map, List.mem_map]
    simp only [List.mem_dedup]

/-- The documents are those that were pushed with positions. -/
theorem documents_eq :
    Postings.documents (pushAll [] pushed) = (withPositions pushed).map Prod.fst := by
  refine Ordered.eq_of_pairwise (fun _ _ hlt => UInt32.lt_asymm hlt) h.ascending.pairwise_documents
    (h.documents.sublist (List.filter_sublist.map Prod.fst)) fun document => ?_
  rw [mem_documents, List.mem_map]
  constructor
  · intro hfound
    obtain ⟨word, hword, rfl⟩ := hfound
    obtain ⟨entry, hentry, hword⟩ := mem_pushAll.1 hword
    refine ⟨entry, List.mem_filter.2 ⟨hentry, decide_eq_true fun hnil => ?_⟩,
      (document_of_mem_ofPositions (h.limit entry hentry) hword).symm⟩
    rw [hnil] at hword
    cases hword
  · intro hfound
    obtain ⟨entry, hentry, rfl⟩ := hfound
    obtain ⟨hentry, hsome⟩ := List.mem_filter.1 hentry
    obtain ⟨p, rest, hpositions⟩ := List.exists_cons_of_ne_nil (of_decide_eq_true hsome)
    have hp : p ∈ entry.2 := hpositions ▸ List.mem_cons_self
    obtain ⟨word, hword, -⟩ := Postings.mem_addresses.1
      ((mem_addresses_ofPositions (h.limit entry hentry)).2 ⟨p, hp, rfl⟩)
    exact ⟨word, mem_pushAll.2 ⟨entry, hentry, hword⟩,
      document_of_mem_ofPositions (h.limit entry hentry) hword⟩

end Pushable

/-- **Pushing positions builds a valid posting list.** If documents ascend and the positions of each
one do not descend, the list that is built by pushing them is canonical, and its set bits are
exactly the positions that were pushed. Its documents are those with at least one position, in the
order in which they were pushed, each with the number of its different positions, and they are as
many as it counts. -/
theorem pushed_exact (h : Pushable pushed) :
    let words := pushAll [] pushed
    isNormalized words = true ∧ words.Canonical ∧
    (∀ x, x ∈ words.addresses ↔
      ∃ entry ∈ pushed, ∃ p ∈ entry.2, x = address entry.1 p.toNat) ∧
    words.documents = (withPositions pushed).map Prod.fst ∧
    words.frequencies =
      (withPositions pushed).map (fun entry => (entry.1, entry.2.toFinset.card)) ∧
    words.documentCount = (withPositions pushed).length := by
  refine ⟨isNormalized_iff.2 h.ascending, ⟨h.ascending, h.full⟩, fun x => h.mem_addresses,
    h.documents_eq, ?_, ?_⟩
  · rw [frequencies_eq h.ascending.pairwise_document, h.documents_eq, List.map_map]
    refine List.map_congr_left fun entry hentry => ?_
    exact congrArg (Prod.mk entry.1) (h.setBits_eq_card (List.mem_filter.1 hentry).1)
  · rw [documentCount_eq_length, h.documents_eq, List.length_map]

/-- Positions of two groups, one of them twice, then a document without any, and the last position
of the last document there is. -/
def pushedDocuments : List (DocumentId × List Position) :=
  [(1, [0, 0, 15, 16]), (4, []), (4294967295, [1048559])]

/-- The repeated position counts once and the empty document not at all. -/
theorem pushed_exact_repeated :
    Pushable pushedDocuments ∧
      documents (pushAll [] pushedDocuments) = [1, 4294967295] ∧
      frequencies (pushAll [] pushedDocuments) = [(1, 3), (4294967295, 1)] ∧
      documentCount (pushAll [] pushedDocuments) = 2 := by
  have h : Pushable pushedDocuments :=
    ⟨by decide, by decide, by simp [pushedDocuments, Position.limit]⟩
  obtain ⟨-, -, -, hdocuments, hfrequencies, hcount⟩ := pushed_exact h
  refine ⟨h, hdocuments.trans (by decide), hfrequencies.trans (by decide),
    hcount.trans (by decide)⟩

end Postings
end Concordance
