import Concordance.Proofs.Ordered
import Concordance.Proofs.Ranking.Selection

/-!
# Draining scorers

Draining a scorer that has not moved yet visits the documents of its role, each once and in
ascending order (`Role.Faithful.enumerates_hits`).
-/

namespace Concordance

/-- A list has the documents of a set, each once and in ascending order. -/
structure Enumerates (documents : List DocumentId) (members : DocumentId → Prop) : Prop where
  ascending : documents.Pairwise (· < ·)
  mem_iff : ∀ document, document ∈ documents ↔ members document

namespace Enumerates

variable {documents other : List DocumentId} {members : DocumentId → Prop}

/-- No documents enumerate the empty set. -/
theorem nil (h : ∀ document, ¬ members document) : Enumerates [] members :=
  ⟨List.Pairwise.nil, fun document => iff_of_false List.not_mem_nil (h document)⟩

/-- Documents that enumerate a set enumerate every set with the same members. -/
theorem congr {same : DocumentId → Prop} (h : Enumerates documents members)
    (hsame : ∀ document, members document ↔ same document) : Enumerates documents same :=
  ⟨h.ascending, fun document => (h.mem_iff document).trans (hsame document)⟩

/-- The documents of a set can be enumerated in one way only. -/
theorem unique (h : Enumerates documents members) (hother : Enumerates other members) :
    documents = other := by
  refine Ordered.eq_of_pairwise (fun _ _ => UInt32.lt_asymm) h.ascending hother.ascending ?_
  intro document
  rw [h.mem_iff, hother.mem_iff]

/-- The first document from a number on is enumerated before those behind it. -/
theorem cons {start : Nat} {first : DocumentId} (hfirst : IsFirst members start first)
    (hmem : members first) (hstart : start ≤ first.toNat)
    (h : Enumerates documents fun document => members document ∧ first.toNat + 1 ≤ document.toNat) :
    Enumerates (first :: documents) fun document =>
      members document ∧ start ≤ document.toNat := by
  refine ⟨List.pairwise_cons.2 ⟨fun later hlater => ?_, h.ascending⟩, fun document => ?_⟩
  · exact UInt32.lt_iff_toNat_lt.2 ((h.mem_iff later).1 hlater).2
  · rw [List.mem_cons, h.mem_iff]
    constructor
    · rintro (rfl | ⟨hdocument, hlt⟩)
      · exact ⟨hmem, hstart⟩
      · exact ⟨hdocument, by omega⟩
    · intro hfound
      obtain ⟨hdocument, hle⟩ := hfound
      rcases UInt32.lt_or_eq_of_le (hfirst.le hdocument hle) with hlt | rfl
      · exact Or.inr ⟨hdocument, UInt32.lt_iff_toNat_lt.1 hlt⟩
      · exact Or.inl rfl

end Enumerates

/-! ## Draining -/

namespace Role.Faithful

variable {role : Role} {current : Option DocumentId} {scorer : Scorer}

/-- From any place, enough steps visit the documents behind it. -/
theorem enumerates_drainWithin (h : role.Faithful current scorer) {fuel : Nat}
    (hfuel : noMore.toNat < after current + fuel) :
    Enumerates ((scorer.drainWithin fuel).1.map Hit.document) fun document =>
      role.members document ∧ after current ≤ document.toNat := by
  -- every visit leaves fewer documents behind the place than there are steps left
  induction fuel generalizing scorer current with
  | zero =>
      refine Enumerates.nil fun document hfound => ?_
      have hle := toNat_le_noMore document
      omega
  | succ fuel ih =>
      obtain ⟨place, hfirst, hmoved⟩ := h.next_call
      rw [Scorer.drainWithin]
      simp only [hmoved.place_eq]
      split
      · rename_i hend
        subst hend
        refine Enumerates.nil fun document hfound => ?_
        exact UInt32.not_lt.2 (hfirst.le hfound.1 hfound.2) (h.below document hfound.1)
      · rename_i hplace
        obtain ⟨hmem, hstart⟩ := hfirst.1.resolve_left hplace
        refine Enumerates.cons hfirst hmem hstart (ih hmoved.score_call ?_)
        rw [after]
        omega

/-- Draining visits the documents of the role. -/
theorem enumerates_hits (h : role.Faithful none scorer) :
    Enumerates (scorer.hits.map Hit.document) role.members := by
  have hall := h.enumerates_drainWithin (show noMore.toNat < after none + UInt32.size by decide)
  exact hall.congr fun document => and_iff_left (Nat.zero_le _)

end Role.Faithful

/-- Draining the scorer of a selection visits the documents it denotes. -/
theorem Selection.WellFormed.enumerates_hits {selection : Selection} (h : selection.WellFormed) :
    Enumerates (selection.scorer.hits.map Hit.document) selection.Selects :=
  (Selection.faithful_scorer h).enumerates_hits

end Concordance
