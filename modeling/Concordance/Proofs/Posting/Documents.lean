import Concordance.Proofs.Posting.Canonical
import Mathlib.Data.Finset.Card

/-!
# Documents of a posting list

An address is a document and a position in it. For a list with ascending keys `documents` is the
ascending list of the documents that have a word, `documentCount` is its length, and without
empty bitmaps these are the documents with an address.
-/

namespace Concordance

/-- The number of a position of a document among all positions of all documents. -/
def address (document : DocumentId) (position : Nat) : Nat :=
  document.toNat * 2 ^ 20 + position

/-- Addresses of positions below `2 ^ 20` tell documents and positions apart. -/
theorem address_inj {first second : DocumentId} {p q : Nat} (hp : p < 2 ^ 20) (hq : q < 2 ^ 20) :
    address first p = address second q ↔ first = second ∧ p = q := by
  constructor
  · intro h
    unfold address at h
    refine ⟨UInt32.toNat_inj.1 (by omega), by omega⟩
  · intro hfound
    obtain ⟨rfl, rfl⟩ := hfound
    rfl

namespace Word

/-- The addresses of a word are those of positions of its document. -/
theorem document_of_mem_addresses {word : Word} {x : Nat} (h : x ∈ word.addresses) :
    x = address word.document (x % 2 ^ 20) := by
  have hslot := (mem_addresses.1 h).1
  rw [address, toNat_document]
  omega

end Word

namespace Postings

/-- Every address of a list is that of a position of a document. -/
theorem exists_address_of_mem {words : Postings} {x : Nat} (h : x ∈ words.addresses) :
    ∃ document position, position < 2 ^ 20 ∧ x = address document position := by
  obtain ⟨word, -, hx⟩ := mem_addresses.1 h
  exact ⟨word.document, x % 2 ^ 20, Nat.mod_lt x (by omega), Word.document_of_mem_addresses hx⟩

/-! ## Runs of equal neighbours -/

/-- Dropping repetitions loses no member. -/
theorem mem_collapse {α : Type} [DecidableEq α] {member : α} (list : List α) :
    member ∈ collapse list ↔ member ∈ list := by
  fun_induction collapse list with
  | case1 first rest ih => simp [ih]
  | case2 first second rest h ih =>
      rw [List.mem_cons, ih, List.mem_cons (b := first)]
  | case3 short h => exact Iff.rfl

/-- A list that does not descend collapses to an ascending one. -/
theorem pairwise_collapse {list : List DocumentId} (h : list.Pairwise (· ≤ ·)) :
    (collapse list).Pairwise (· < ·) := by
  fun_induction collapse list with
  | case1 first rest ih => exact ih (List.pairwise_cons.1 h).2
  | case2 first second rest hne ih =>
      obtain ⟨hfirst, hrest⟩ := List.pairwise_cons.1 h
      refine List.pairwise_cons.2 ⟨fun later hlater => ?_, ih hrest⟩
      have hlt : first < second :=
        UInt32.lt_of_le_of_ne (hfirst second List.mem_cons_self) hne
      rcases List.mem_cons.1 ((mem_collapse _).1 hlater) with rfl | hlater
      · exact hlt
      · exact UInt32.lt_of_lt_of_le hlt ((List.pairwise_cons.1 hrest).1 later hlater)
  | case3 short hshort =>
      cases short with
      | nil => exact List.Pairwise.nil
      | cons first rest =>
          cases rest with
          | nil => exact List.pairwise_singleton _ _
          | cons second rest => exact absurd rfl (hshort first second rest)

/-- The members of any list of documents can be listed in ascending order. -/
theorem exists_ascending (members : List DocumentId) :
    ∃ sorted : List DocumentId, sorted.Pairwise (· < ·) ∧
      ∀ document, document ∈ sorted ↔ document ∈ members := by
  refine ⟨collapse (members.mergeSort fun a b => a ≤ b), pairwise_collapse ?_, fun document => ?_⟩
  · have hsorted : (members.mergeSort fun a b => a ≤ b).Pairwise
        fun a b => decide (a ≤ b) = true := by
      refine List.pairwise_mergeSort (fun a b c hab hbc => ?_) (fun a b => ?_) members
      · simp only [decide_eq_true_eq] at hab hbc ⊢
        exact UInt32.le_trans hab hbc
      · simp only [Bool.or_eq_true, decide_eq_true_eq]
        exact UInt32.le_total a b
    exact hsorted.imp of_decide_eq_true
  · rw [mem_collapse]
    exact (List.mergeSort_perm members _).mem_iff

/-- Counting runs behind a document counts the collapsed list without that document. -/
theorem countRuns_some (document : DocumentId) (words : Postings) :
    countRuns (some document) words + 1 =
      (collapse (document :: words.map Word.document)).length := by
  induction words generalizing document with
  | nil => rfl
  | cons word rest ih =>
      rw [countRuns, List.map_cons, collapse]
      by_cases h : document = word.document
      · rw [if_pos (congrArg some h), if_pos h, ih, h]
      · rw [if_neg (fun heq => h (Option.some.inj heq)), if_neg h, ih, List.length_cons]

/-- The documents are as many as `documentCount` tells. -/
theorem documentCount_eq_length (words : Postings) :
    words.documentCount = words.documents.length := by
  cases words with
  | nil => rfl
  | cons word rest =>
      rw [documentCount, countRuns, if_neg (by simp), countRuns_some, documents, List.map_cons]

/-! ## Documents and addresses -/

/-- The documents of an ascending list are in order. -/
theorem Ascending.pairwise_document {words : Postings} (h : words.Ascending) :
    (words.map Word.document).Pairwise (· ≤ ·) := by
  refine List.pairwise_map.2 (h.imp fun {first second} hlt => ?_)
  have hslot := Word.key_lt_iff.1 hlt
  rw [UInt32.le_iff_toNat_le, Word.toNat_document, Word.toNat_document]
  exact Nat.div_le_div_right (Nat.le_of_lt hslot)

/-- The documents of a list with ascending keys ascend strictly. -/
theorem Ascending.pairwise_documents {words : Postings} (h : words.Ascending) :
    words.documents.Pairwise (· < ·) :=
  pairwise_collapse h.pairwise_document

/-- The documents of a list are those of its words. -/
theorem mem_documents {words : Postings} {document : DocumentId} :
    document ∈ words.documents ↔ ∃ word ∈ words, word.document = document := by
  rw [documents, mem_collapse, List.mem_map]

/-- With ascending keys, the number of documents is that of different documents of words. -/
theorem Ascending.documentCount_eq_card {words : Postings} (h : words.Ascending) :
    words.documentCount = (words.map Word.document).toFinset.card := by
  have hnodup : words.documents.Nodup :=
    Ordered.nodup_of_pairwise (fun _ _ hlt => UInt32.lt_asymm hlt) h.pairwise_documents
  rw [documentCount_eq_length, ← List.toFinset_card_of_nodup hnodup]
  congr 1
  ext document
  rw [List.mem_toFinset, List.mem_toFinset, documents, mem_collapse]

/-- Without empty bitmaps, the documents are those that have an address. -/
theorem Full.mem_documents {words : Postings} (h : words.Full) {document : DocumentId} :
    document ∈ words.documents ↔ ∃ p < 2 ^ 20, address document p ∈ words.addresses := by
  rw [Postings.mem_documents]
  constructor
  · intro hfound
    obtain ⟨word, hword, rfl⟩ := hfound
    obtain ⟨x, hx⟩ := Word.bitmap_ne_zero_iff.1 (h word hword)
    refine ⟨x % 2 ^ 20, Nat.mod_lt x (by omega), mem_addresses.2 ⟨word, hword, ?_⟩⟩
    rwa [← Word.document_of_mem_addresses hx]
  · intro hfound
    obtain ⟨p, hp, hx⟩ := hfound
    obtain ⟨word, hword, hx⟩ := mem_addresses.1 hx
    have heq := Word.document_of_mem_addresses hx
    exact ⟨word, hword, ((address_inj hp (Nat.mod_lt _ (by omega))).1 heq).1.symm⟩

end Postings
end Concordance
