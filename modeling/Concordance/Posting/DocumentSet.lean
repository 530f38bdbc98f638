import Concordance.Posting.Word

/-!
# Sets of documents

A set of documents is held as its documents in strictly ascending order, so that
two sets with the same documents are equal. The view of a set is membership, and
each operation says what it does to it.
-/

namespace Concordance

/-- Documents in strictly ascending order. -/
structure DocumentSet where
  documents : List DocumentId := []
  sorted : documents.Pairwise (· < ·) := by exact List.Pairwise.nil

namespace DocumentSet

/-- Membership is membership in the list of documents. -/
instance : Membership DocumentId DocumentSet where
  mem set document := document ∈ set.documents

/-- A set has the documents of its list. -/
theorem mem_iff {document : DocumentId} {set : DocumentSet} :
    document ∈ set ↔ document ∈ set.documents :=
  Iff.rfl

/-- Whether a set has a document is decided by its list. -/
instance (document : DocumentId) (set : DocumentSet) : Decidable (document ∈ set) :=
  inferInstanceAs (Decidable (document ∈ set.documents))

/-- The set without documents. -/
def empty : DocumentSet := {}

/-- Whether there are no documents. -/
def isEmpty (set : DocumentSet) : Bool :=
  set.documents.isEmpty

/-- Put a document into its place, unless it is there. -/
def insertDocument (document : DocumentId) : List DocumentId → List DocumentId
  | [] => [document]
  | other :: rest =>
      if document < other then document :: other :: rest
      else if document = other then other :: rest
      else other :: insertDocument document rest

/-- A document after insertion is the new one or an old one. -/
theorem mem_insertDocument {document member : DocumentId} {documents : List DocumentId} :
    member ∈ insertDocument document documents ↔ member = document ∨ member ∈ documents := by
  induction documents with
  | nil => simp [insertDocument]
  | cons other rest ih =>
      unfold insertDocument
      split
      · simp
      · split
        · rename_i hsame
          subst hsame
          simp
        · simp only [List.mem_cons, ih]
          exact or_left_comm

/-- Insertion keeps the order. -/
theorem pairwise_insertDocument (document : DocumentId) {documents : List DocumentId}
    (hsorted : documents.Pairwise (· < ·)) :
    (insertDocument document documents).Pairwise (· < ·) := by
  induction documents with
  | nil => simp [insertDocument]
  | cons other rest ih =>
      obtain ⟨habove, hlater⟩ := List.pairwise_cons.1 hsorted
      unfold insertDocument
      split
      · rename_i hless
        refine List.pairwise_cons.2 ⟨fun member hmem => ?_, hsorted⟩
        rcases List.mem_cons.1 hmem with hsame | hrest
        · exact hsame ▸ hless
        · exact UInt32.lt_trans hless (habove member hrest)
      · split
        · exact hsorted
        · rename_i hnotLess hdifferent
          refine List.pairwise_cons.2 ⟨fun member hmem => ?_, ih hlater⟩
          rcases mem_insertDocument.1 hmem with hsame | hrest
          · subst hsame
            exact UInt32.lt_of_le_of_ne (UInt32.not_lt.1 hnotLess) (Ne.symm hdifferent)
          · exact habove member hrest

/-- Add a document. -/
def insert (document : DocumentId) (set : DocumentSet) : DocumentSet :=
  ⟨insertDocument document set.documents, pairwise_insertDocument document set.sorted⟩

/-- Adding a document adds no other one. -/
theorem mem_insert {document member : DocumentId} {set : DocumentSet} :
    member ∈ set.insert document ↔ member = document ∨ member ∈ set :=
  mem_insertDocument

/-- The set of these documents, in any order. -/
def ofList (documents : List DocumentId) : DocumentSet :=
  documents.foldr insert empty

/-- The set of some documents has no other ones. -/
theorem mem_ofList {member : DocumentId} {documents : List DocumentId} :
    member ∈ ofList documents ↔ member ∈ documents := by
  induction documents with
  | nil => simp [ofList, empty, mem_iff]
  | cons first rest ih =>
      rw [List.mem_cons, ← ih]
      exact mem_insert

/-- All documents below a limit. -/
def below (limit : UInt32) : DocumentSet :=
  ofList ((List.range limit.toNat).map Nat.toUInt32)

/-- The documents of either set. -/
def union (first second : DocumentSet) : DocumentSet :=
  first.documents.foldr insert second

/-- The documents of both sets. -/
def inter (first second : DocumentSet) : DocumentSet :=
  ⟨first.documents.filter (· ∈ second), first.sorted.filter _⟩

/-- The documents of the first set that are not in the second. -/
def diff (first second : DocumentSet) : DocumentSet :=
  ⟨first.documents.filter (· ∉ second), first.sorted.filter _⟩

/-- The union has the documents of either set. -/
theorem mem_union {member : DocumentId} {first second : DocumentSet} :
    member ∈ first.union second ↔ member ∈ first ∨ member ∈ second := by
  unfold union
  rw [@mem_iff member first]
  induction first.documents with
  | nil => simp
  | cons document rest ih => simp [mem_insert, ih, or_assoc]

/-- The intersection has the documents of both sets. -/
theorem mem_inter {member : DocumentId} {first second : DocumentSet} :
    member ∈ first.inter second ↔ member ∈ first ∧ member ∈ second := by
  simp [inter, mem_iff]

/-- The difference has the documents of the first set that the second one lacks. -/
theorem mem_diff {member : DocumentId} {first second : DocumentSet} :
    member ∈ first.diff second ↔ member ∈ first ∧ member ∉ second := by
  simp [diff, mem_iff]

end DocumentSet

end Concordance
