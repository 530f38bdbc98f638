import Mathlib.Algebra.GroupWithZero.Nat
import Mathlib.Data.List.Induction
import Concordance.Ranking.TopDocuments

/-!
# The best documents are exact

Hits are put in order by descending score, and hits with one score by ascending document
(`Hit.InOrder`). As bit patterns tell all scores apart, there is only one way to do so. What is kept
of a sequence of hits is the front of the hits in this order (`top_documents_exact`), so that the
order in which they arrive makes no difference.
-/

namespace Concordance

namespace Hit

/-- A score is above another one: a positive score is above a negative one, and of two scores with
one sign the greater magnitude is above if they are positive and below if they are negative. Zeros
have a sign, and what is no number has a greater magnitude than infinity. -/
def Above (first second : UInt32) : Prop :=
  first.toNat < 2 ^ 31 ∧ (2 ^ 31 ≤ second.toNat ∨ second.toNat < first.toNat) ∨
    2 ^ 31 ≤ first.toNat ∧ first.toNat < second.toNat

/-- Of two scores the one with the greater rank is above. -/
theorem rank_lt_iff {first second : UInt32} : rank second < rank first ↔ Above first second := by
  have hfirst := UInt32.toNat_lt first
  have hsecond := UInt32.toNat_lt second
  unfold rank Above
  split <;> split <;> omega

/-- Different scores have different ranks. -/
theorem rank_injective : Function.Injective rank := by
  intro first second h
  have hfirst := UInt32.toNat_lt first
  have hsecond := UInt32.toNat_lt second
  refine UInt32.toNat_inj.1 ?_
  unfold rank at h
  split at h <;> split at h <;> omega

/-- Hits in the order of a ranking: the higher score first, and of two equal scores the lesser
document. -/
def InOrder (first second : Hit) : Prop :=
  Above first.bits second.bits ∨ first.bits = second.bits ∧ first.document ≤ second.document

/-- The order of hits, told by their ranks. -/
theorem inOrder_iff {first second : Hit} :
    InOrder first second ↔ rank second.bits < rank first.bits ∨
      rank first.bits = rank second.bits ∧ first.document.toNat ≤ second.document.toNat := by
  rw [InOrder, rank_lt_iff, rank_injective.eq_iff, UInt32.le_iff_toNat_le]

/-- A hit is better if its rank is greater or, for equal ranks, its document is lesser. -/
theorem better_iff {first second : Hit} :
    first.better second = true ↔ rank second.bits < rank first.bits ∨
      rank first.bits = rank second.bits ∧ first.document.toNat < second.document.toNat := by
  rw [better, Bool.or_eq_true, Bool.and_eq_true, decide_eq_true_eq, decide_eq_true_eq, beq_iff_eq,
    UInt32.lt_iff_toNat_lt]

/-- Two hits are in order unless the second one is better. -/
theorem inOrder_iff_not_better {first second : Hit} :
    InOrder first second ↔ ¬ second.better first = true := by
  rw [inOrder_iff, better_iff]
  omega

/-- A better hit stands first. -/
theorem inOrder_of_better {first second : Hit} (h : first.better second = true) :
    InOrder first second := by
  rw [better_iff] at h
  rw [inOrder_iff]
  omega

/-- The order of hits is transitive. -/
theorem InOrder.trans {first second third : Hit} (h : InOrder first second)
    (hlater : InOrder second third) : InOrder first third := by
  rw [inOrder_iff] at h hlater ⊢
  omega

/-- What is better than a hit is better than all that come after it. -/
theorem better_of_inOrder {hit first second : Hit} (h : hit.better first = true)
    (horder : InOrder first second) : hit.better second = true := by
  rw [better_iff] at h ⊢
  rw [inOrder_iff] at horder
  omega

/-- Different hits are in order in one way only. -/
theorem InOrder.antisymm {first second : Hit} (h : InOrder first second)
    (hback : InOrder second first) : first = second := by
  rw [inOrder_iff] at h hback
  have hbits : rank first.bits = rank second.bits := by omega
  have hdocument : first.document.toNat = second.document.toNat := by omega
  cases first
  cases second
  rw [Hit.mk.injEq]
  exact ⟨UInt32.toNat_inj.1 hdocument, rank_injective hbits⟩

end Hit

namespace TopDocuments

/-! ## Hits in order -/

variable {hits sorted : List Hit}

/-- Inserting a hit adds it, and loses none. -/
theorem perm_insert (hit : Hit) (hits : List Hit) : (insert hit hits).Perm (hit :: hits) := by
  induction hits with
  | nil => exact List.Perm.refl _
  | cons other rest ih =>
      rw [insert]
      split
      · exact List.Perm.refl _
      · exact (ih.cons other).trans (List.Perm.swap hit other rest)

/-- Inserting a hit keeps the order. -/
theorem pairwise_insert (hit : Hit) (h : sorted.Pairwise Hit.InOrder) :
    (insert hit sorted).Pairwise Hit.InOrder := by
  induction sorted with
  | nil => exact List.pairwise_singleton _ _
  | cons other rest ih =>
      obtain ⟨hother, hrest⟩ := List.pairwise_cons.1 h
      rw [insert]
      split
      · rename_i hbetter
        have horder := Hit.inOrder_of_better hbetter
        refine List.pairwise_cons.2 ⟨fun later hlater => ?_, h⟩
        rcases List.mem_cons.1 hlater with rfl | hlater
        · exact horder
        · exact horder.trans (hother later hlater)
      · rename_i hnot
        refine List.pairwise_cons.2 ⟨fun later hlater => ?_, ih hrest⟩
        rcases List.mem_cons.1 ((perm_insert hit rest).mem_iff.1 hlater) with rfl | hlater
        · exact Hit.inOrder_iff_not_better.2 hnot
        · exact hother later hlater

/-- The hits in the order of a ranking. -/
def ranking (hits : List Hit) : List Hit :=
  hits.foldl (fun sorted hit => insert hit sorted) []

/-- A ranking is extended by inserting the hit that comes last. -/
theorem ranking_append (hits : List Hit) (hit : Hit) :
    ranking (hits ++ [hit]) = insert hit (ranking hits) := by
  rw [ranking, List.foldl_append]
  rfl

/-- A ranking has the hits it was made of. -/
theorem perm_ranking (hits : List Hit) : (ranking hits).Perm hits := by
  induction hits using List.reverseRecOn with
  | nil => exact List.Perm.refl _
  | append_singleton hits hit ih =>
      rw [ranking_append]
      exact (perm_insert hit _).trans
        ((ih.cons hit).trans (List.perm_append_singleton hit hits).symm)

/-- A ranking is in order. -/
theorem pairwise_ranking (hits : List Hit) : (ranking hits).Pairwise Hit.InOrder := by
  induction hits using List.reverseRecOn with
  | nil => exact List.Pairwise.nil
  | append_singleton hits hit ih =>
      rw [ranking_append]
      exact pairwise_insert hit ih

/-- The same hits are ranked in one way, in whatever order they come. -/
theorem ranking_eq (hperm : sorted.Perm hits) (h : sorted.Pairwise Hit.InOrder) :
    ranking hits = sorted :=
  ((perm_ranking hits).trans hperm.symm).eq_of_pairwise
    (fun _ _ _ _ hfirst hsecond => hfirst.antisymm hsecond) (pairwise_ranking hits) h

/-! ## What is kept -/

/-- Of the front of a ranking all is kept but the worst, if the new hit is better than that. -/
theorem take_insert (hit : Hit) (h : sorted.Pairwise Hit.InOrder) (last : Nat) :
    (insert hit sorted).take (last + 1) =
      match sorted[last]? with
      | some worst =>
          if hit.better worst then insert hit (sorted.take last) else sorted.take (last + 1)
      | none => insert hit sorted := by
  induction sorted generalizing last with
  | nil => cases last <;> rfl
  | cons other rest ih =>
      obtain ⟨hother, hrest⟩ := List.pairwise_cons.1 h
      by_cases hbetter : hit.better other = true
      · -- the hit comes first, and is better than all others
        have hfront : insert hit (other :: rest) = hit :: other :: rest := if_pos hbetter
        rw [hfront, List.take_succ_cons]
        split
        · rename_i worst hworst
          have hless : hit.better worst = true := by
            rcases List.mem_cons.1 (List.mem_of_getElem? hworst) with rfl | hmem
            · exact hbetter
            · exact Hit.better_of_inOrder hbetter (hother worst hmem)
          rw [if_pos hless]
          cases last with
          | zero => rfl
          | succ last => exact (if_pos hbetter).symm
        · rename_i hnone
          rw [List.take_of_length_le (List.getElem?_eq_none_iff.1 hnone)]
      · have hbehind : ∀ some, insert hit (other :: some) = other :: insert hit some :=
          fun some => if_neg hbetter
        rw [hbehind, List.take_succ_cons]
        cases last with
        | zero => exact (if_neg hbetter).symm
        | succ last =>
            rw [ih hrest last, List.getElem?_cons_succ]
            split
            · rw [List.take_succ_cons, List.take_succ_cons, hbehind]
              split
              · rfl
              · rfl
            · rfl

/-- Keeping the front of a ranking up to date keeps the front of the ranking with the new hit. -/
theorem keep_take (limit : Nat) (h : sorted.Pairwise Hit.InOrder) (hit : Hit) :
    keep limit (sorted.take limit) hit = (insert hit sorted).take limit := by
  unfold keep
  cases limit with
  | zero => rfl
  | succ last =>
      rw [if_neg (Nat.succ_ne_zero last), take_insert hit h]
      cases hworst : sorted[last]? with
      | none =>
          -- there is room left
          have hfew := List.getElem?_eq_none_iff.1 hworst
          rw [List.take_of_length_le (Nat.le_succ_of_le hfew), if_pos (Nat.lt_succ_of_le hfew)]
      | some worst =>
          obtain ⟨hlast, -⟩ := List.getElem?_eq_some_iff.1 hworst
          have hfull : (sorted.take (last + 1)).length = last + 1 :=
            List.length_take_of_le hlast
          have hworst' : (sorted.take (last + 1)).getLast? = some worst := by
            rw [List.getLast?_take, if_neg (Nat.succ_ne_zero last), Nat.add_sub_cancel, hworst,
              Option.some_or]
          have hothers : (sorted.take (last + 1)).dropLast = sorted.take last := by
            rw [List.dropLast_eq_take, hfull, Nat.add_sub_cancel, List.take_take,
              Nat.min_eq_left (Nat.le_succ last)]
          rw [hfull, if_neg (Nat.lt_irrefl _), hworst', hothers]

/-- What is kept of a sequence of hits, at most `limit` of them. -/
def collectAll (limit : Nat) (hits : List Hit) : TopDocuments :=
  hits.foldl collect { limit }

/-- The hit that comes last is collected last. -/
theorem collectAll_append (limit : Nat) (hits : List Hit) (hit : Hit) :
    collectAll limit (hits ++ [hit]) = (collectAll limit hits).collect hit := by
  rw [collectAll, List.foldl_append]
  rfl

/-- The best hits are the front of their ranking. -/
theorem collectAll_eq (limit : Nat) (hits : List Hit) :
    collectAll limit hits =
      { limit, hits := (ranking hits).take limit, collected := hits.length } := by
  induction hits using List.reverseRecOn with
  | nil => exact congrArg (TopDocuments.mk limit · 0) List.take_nil.symm
  | append_singleton hits hit ih =>
      rw [collectAll_append, ih, collect, keep_take limit (pairwise_ranking hits), ranking_append,
        List.length_append, List.length_singleton]

/-- Documents that may all be kept are kept. -/
theorem perm_hits_collectAll {limit : Nat} (h : hits.length ≤ limit) :
    (collectAll limit hits).hits.Perm hits := by
  rw [collectAll_eq]
  change ((ranking hits).take limit).Perm hits
  rw [List.take_of_length_le (by rwa [(perm_ranking hits).length_eq])]
  exact perm_ranking hits

/-- Whatever is kept was collected. -/
theorem mem_of_mem_collectAll {limit : Nat} {hit : Hit} (h : hit ∈ (collectAll limit hits).hits) :
    hit ∈ hits := by
  rw [collectAll_eq] at h
  exact (perm_ranking hits).mem_iff.1 (List.mem_of_mem_take h)

/-- **The best documents are exact.** There is one way to put collected hits in order, by descending
score and then by ascending document, and what is kept is the front of it: as many hits as may be
kept, or all of them if there are fewer. All that were collected are counted. The hits that are kept
are the same in whatever order they were collected, and fewer that may be kept are the front of
more. -/
theorem top_documents_exact (hits : List Hit) :
    (∃ sorted : List Hit, sorted.Perm hits ∧ sorted.Pairwise Hit.InOrder ∧
      (∀ other : List Hit, other.Perm hits → other.Pairwise Hit.InOrder → other = sorted) ∧
      ∀ limit, (collectAll limit hits).hits = sorted.take limit ∧
        (collectAll limit hits).hits.length = min limit hits.length) ∧
    (∀ limit, (collectAll limit hits).collected = hits.length) ∧
    (∀ limit (other : List Hit), other.Perm hits →
      (collectAll limit other).hits = (collectAll limit hits).hits) ∧
    ∀ limit larger, limit ≤ larger →
      (collectAll limit hits).hits <+: (collectAll larger hits).hits := by
  refine ⟨⟨ranking hits, perm_ranking hits, pairwise_ranking hits, ?_, fun limit => ?_⟩,
    fun limit => ?_, fun limit other hperm => ?_, fun limit larger hle => ?_⟩
  · intro other hperm hsorted
    exact (ranking_eq hperm hsorted).symm
  · rw [collectAll_eq]
    refine ⟨rfl, ?_⟩
    rw [List.length_take, (perm_ranking hits).length_eq]
  · rw [collectAll_eq]
  · rw [collectAll_eq, collectAll_eq,
      ranking_eq ((perm_ranking hits).trans hperm.symm) (pairwise_ranking hits)]
  · rw [collectAll_eq, collectAll_eq]
    exact List.take_prefix_take_left hle

/-- Scores that are not numbers come first or last by their sign, and zeros are told apart by it. -/
theorem top_documents_exact_signs :
    [⟨9, 0xFFC00000⟩, ⟨7, 0x3F800000⟩, ⟨5, 0x80000000⟩, ⟨3, 0x3F800000⟩, ⟨6, 0⟩,
        ⟨1, 0x7FC00000⟩].Perm
      [⟨1, 0x7FC00000⟩, ⟨3, 0x3F800000⟩, ⟨7, 0x3F800000⟩, ⟨6, 0⟩, ⟨5, 0x80000000⟩,
        (⟨9, 0xFFC00000⟩ : Hit)] ∧
    (collectAll 4 [⟨9, 0xFFC00000⟩, ⟨7, 0x3F800000⟩, ⟨5, 0x80000000⟩, ⟨3, 0x3F800000⟩, ⟨6, 0⟩,
        ⟨1, 0x7FC00000⟩]).hits =
      [⟨1, 0x7FC00000⟩, ⟨3, 0x3F800000⟩, ⟨7, 0x3F800000⟩, ⟨6, 0⟩] := by
  have hperm : [⟨9, 0xFFC00000⟩, ⟨7, 0x3F800000⟩, ⟨5, 0x80000000⟩, ⟨3, 0x3F800000⟩, ⟨6, 0⟩,
        ⟨1, 0x7FC00000⟩].Perm
      [⟨1, 0x7FC00000⟩, ⟨3, 0x3F800000⟩, ⟨7, 0x3F800000⟩, ⟨6, 0⟩, ⟨5, 0x80000000⟩,
        (⟨9, 0xFFC00000⟩ : Hit)] := by
    decide
  obtain ⟨-, -, hsame, -⟩ := top_documents_exact
    [⟨1, 0x7FC00000⟩, ⟨3, 0x3F800000⟩, ⟨7, 0x3F800000⟩, ⟨6, 0⟩, ⟨5, 0x80000000⟩, ⟨9, 0xFFC00000⟩]
  refine ⟨hperm, (hsame 4 _ hperm).trans ?_⟩
  decide

end TopDocuments
end Concordance
