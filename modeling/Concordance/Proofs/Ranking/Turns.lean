import Concordance.Proofs.Ordered
import Concordance.Proofs.Ranking.Cursor
import Concordance.Proofs.Ranking.Heap

/-!
# The turns of the parts of a disjunction

The queue of a disjunction mirrors its parts: every part that is not at its end has one turn, at the
place where it stands, and the queue is in order (`Queued`). A part that was moved takes a new turn
(`Queued.move`). The first turn tells the least place (`Queued.first_le`), and the turns at a place
are those of the parts that stand there (`Queued.mem_turnsAt`), each once. In which order they are
kept depends on what was done before.
-/

namespace Concordance
namespace Scorer

variable {places : List DocumentId} {queue : TurnQueue} {turns : List Turn} {turn : Turn}
  {place : DocumentId} {index : Nat}

/-! ## Queues that mirror places -/

/-- A queue in order that holds one turn for every place of a list but `noMore`. -/
structure Queued (places : List DocumentId) (queue : TurnQueue) : Prop where
  ordered : queue.Ordered
  nodup : queue.toList.Nodup
  mem_iff : ∀ turn, turn ∈ queue.toList ↔
    places[turn.index]? = some turn.place ∧ turn.place ≠ noMore

/-- A queue that holds the turns of all other places holds all of them with one more turn. -/
theorem queued_enqueue (hordered : queue.Ordered) (hnodup : queue.toList.Nodup)
    (hplace : places[index]? = some place)
    (hmem : ∀ turn, turn ∈ queue.toList ↔
      turn.index ≠ index ∧ places[turn.index]? = some turn.place ∧ turn.place ≠ noMore) :
    Queued places (enqueue place index queue) := by
  rw [enqueue]
  split
  · rename_i hend
    refine ⟨hordered, hnodup, fun turn => (hmem turn).trans (and_iff_right_of_imp fun hturn => ?_)⟩
    rintro rfl
    rw [hplace, Option.some.injEq] at hturn
    exact hturn.2 (hturn.1.symm.trans hend)
  · rename_i hmore
    have hperm := queue.put_perm ⟨place, index⟩
    have hnew : (⟨place, index⟩ : Turn) ∉ queue.toList := fun hfound => ((hmem _).1 hfound).1 rfl
    refine ⟨hordered.put _, hperm.nodup_iff.2 (List.nodup_cons.2 ⟨hnew, hnodup⟩), fun turn => ?_⟩
    rw [hperm.mem_iff, List.mem_cons, hmem]
    constructor
    · rintro (rfl | hturn)
      · exact ⟨hplace, hmore⟩
      · exact hturn.2
    · intro hturn
      by_cases hindex : turn.index = index
      · left
        rw [hindex, hplace, Option.some.injEq] at hturn
        exact Turn.ext hturn.1.symm hindex
      · exact Or.inr ⟨hindex, hturn⟩

namespace Queued

/-- A queued turn is at the place of its part. -/
theorem place_eq (h : Queued places queue) (hturn : turn ∈ queue.toList) :
    places[turn.index]? = some turn.place :=
  ((h.mem_iff turn).1 hturn).1

/-- Nothing is queued for no places. -/
theorem empty : Queued [] #[] :=
  ⟨fun child _ hchild => absurd hchild (Nat.not_lt_zero child), List.nodup_nil,
    fun _ => iff_of_false List.not_mem_nil fun hturn => nomatch hturn.1⟩

/-- The queue with the turn of one more place. -/
theorem push (h : Queued places queue) (place : DocumentId) :
    Queued (places ++ [place]) (enqueue place places.length queue) := by
  refine queued_enqueue h.ordered h.nodup List.getElem?_concat_length fun turn => ?_
  rw [h.mem_iff]
  rcases Nat.lt_trichotomy turn.index places.length with hlt | heq | hgt
  · rw [List.getElem?_append_left hlt]
    exact (and_iff_right (Nat.ne_of_lt hlt)).symm
  · rw [heq, List.getElem?_eq_none (Nat.le_refl _)]
    exact iff_of_false (fun hturn => nomatch hturn.1) fun hturn => hturn.1 rfl
  · have hlength : (places ++ [place]).length ≤ turn.index := by rwa [List.length_append]
    rw [List.getElem?_eq_none (Nat.le_of_lt hgt), List.getElem?_eq_none hlength]
    exact iff_of_false (fun hturn => nomatch hturn.1) fun hturn => nomatch hturn.2.1

/-- All parts from an index on take their turns. -/
theorem turnsFrom (h : Queued places queue) (parts : List Scorer) :
    Queued (places ++ parts.map Scorer.place) (turnsFrom queue places.length parts) := by
  induction parts generalizing places queue with
  | nil =>
      rw [List.map_nil, List.append_nil]
      exact h
  | cons part rest ih =>
      have hrest := ih (h.push part.place)
      rw [List.length_append, List.length_singleton, List.append_assoc] at hrest
      exact hrest

/-- The first turn is in the queue. -/
theorem mem_of_first (hfirst : queue[0]? = some turn) : turn ∈ queue.toList :=
  Array.mem_toList_iff.2 (Array.mem_of_getElem? hfirst)

/-- The part whose turn comes first is moved and takes another turn. -/
theorem move (h : Queued places queue) (hfirst : queue[0]? = some turn) (place : DocumentId) :
    Queued (places.set turn.index place) (enqueue place turn.index queue.takeFirst) := by
  have hperm := TurnQueue.perm_takeFirst hfirst
  obtain ⟨hnew, hnodup⟩ := List.nodup_cons.1 (hperm.nodup_iff.1 h.nodup)
  have hthere := h.place_eq (mem_of_first hfirst)
  obtain ⟨hindex, -⟩ := List.getElem?_eq_some_iff.1 hthere
  refine queued_enqueue h.ordered.takeFirst hnodup (List.getElem?_set_self hindex)
    fun other => ?_
  constructor
  · intro hother
    have hqueued := (h.mem_iff other).1 (hperm.mem_iff.2 (List.mem_cons_of_mem _ hother))
    have hne : other.index ≠ turn.index := by
      intro hsame
      -- a second turn of the same part would be the same turn
      obtain ⟨hplace, -⟩ := hqueued
      rw [hsame, hthere, Option.some.injEq] at hplace
      exact hnew (Turn.ext hplace hsame.symm ▸ hother)
    rw [List.getElem?_set_ne (Ne.symm hne)]
    exact ⟨hne, hqueued⟩
  · intro hother
    rw [List.getElem?_set_ne (Ne.symm hother.1)] at hother
    have hqueued := hperm.mem_iff.1 ((h.mem_iff other).2 hother.2)
    refine (List.mem_cons.1 hqueued).resolve_left ?_
    rintro rfl
    exact hother.1 rfl

/-- No place lies before that of the first turn. -/
theorem first_le (h : Queued places queue) (hplace : place ∈ places) :
    (queue[0]?.map Turn.place).getD noMore ≤ place := by
  by_cases hmore : place = noMore
  · subst hmore
    exact UInt32.le_iff_toNat_le.2 (toNat_le_noMore _)
  · obtain ⟨index, hindex⟩ := List.getElem?_of_mem hplace
    have hturn : (⟨place, index⟩ : Turn) ∈ queue.toList := (h.mem_iff _).2 ⟨hindex, hmore⟩
    obtain ⟨there, hthere, heq⟩ := Array.getElem_of_mem (Array.mem_toList_iff.1 hturn)
    have hfirst := Nat.zero_lt_of_lt hthere
    have hle := Turn.place_le_of_not_before (h.ordered.first_le hfirst hthere)
    rw [heq] at hle
    rwa [Array.getElem?_eq_getElem hfirst]

/-- The first turn is at one of the places, unless all of them are `noMore`. -/
theorem first_mem (h : Queued places queue) :
    (queue[0]?.map Turn.place).getD noMore = noMore ∨
      (queue[0]?.map Turn.place).getD noMore ∈ places := by
  cases hfirst : queue[0]? with
  | none => exact Or.inl rfl
  | some turn =>
      exact Or.inr (List.mem_of_getElem? (h.place_eq (mem_of_first hfirst)))

end Queued

/-! ## Turns at one place -/

/-- The indices of the parts that have their turns at a place, in the order of these turns. -/
def turnsAt (place : DocumentId) (turns : List Turn) : List Nat :=
  (turns.filter fun turn => turn.place = place).map Turn.index

/-- A turn at the place is listed with those after it. -/
theorem turnsAt_cons_here (h : turn.place = place) :
    turnsAt place (turn :: turns) = turn.index :: turnsAt place turns := by
  rw [turnsAt, List.filter_cons_of_pos (by rwa [decide_eq_true_eq]), List.map_cons, turnsAt]

/-- A turn at another place is left out. -/
theorem turnsAt_cons_elsewhere (h : ¬ turn.place = place) :
    turnsAt place (turn :: turns) = turnsAt place turns := by
  rw [turnsAt, List.filter_cons_of_neg (by rwa [decide_eq_true_eq]), turnsAt]

/-- The turns at a place are those of the parts that stand there. -/
theorem Queued.mem_turnsAt (h : Queued places queue) (hmore : place ≠ noMore) :
    index ∈ turnsAt place queue.toList ↔ places[index]? = some place := by
  rw [turnsAt, List.mem_map]
  constructor
  · intro hfound
    obtain ⟨turn, hturn, rfl⟩ := hfound
    obtain ⟨hmem, hplace⟩ := List.mem_filter.1 hturn
    rw [← of_decide_eq_true hplace]
    exact h.place_eq hmem
  · intro hplace
    refine ⟨⟨place, index⟩, List.mem_filter.2 ⟨?_, decide_eq_true rfl⟩, rfl⟩
    exact (h.mem_iff _).2 ⟨hplace, hmore⟩

/-- No part has two turns at one place. -/
theorem nodup_turnsAt (h : turns.Nodup) (place : DocumentId) : (turnsAt place turns).Nodup := by
  refine List.pairwise_map.2 ((h.filter _).imp_of_mem ?_)
  intro first second hfirst hsecond hne heq
  have hplace := of_decide_eq_true (List.mem_filter.1 hfirst).2
  have hplace' := of_decide_eq_true (List.mem_filter.1 hsecond).2
  exact hne (Turn.ext (hplace.trans hplace'.symm) heq)

/-- Elements picked at different places of a list are, in some order, those with a property if the
places are exactly theirs. -/
theorem perm_filterMap_getElem? {α : Type} {list : List α} {holds : α → Bool}
    {indices : List Nat} (hnodup : indices.Nodup)
    (hmem : ∀ index, index ∈ indices ↔ ∃ value, list[index]? = some value ∧ holds value = true) :
    (indices.filterMap (list[·]?)).Perm (list.filter holds) := by
  have hindices : indices.Perm
      ((List.range list.length).filter fun index => (list[index]?).any holds) := by
    refine (List.perm_ext_iff_of_nodup hnodup (List.nodup_range.filter _)).2 fun index => ?_
    rw [hmem, List.mem_filter, List.mem_range, Option.any_eq_true]
    refine (and_iff_right_of_imp ?_).symm
    rintro ⟨value, hvalue, -⟩
    exact (List.getElem?_eq_some_iff.1 hvalue).1
  have hlist : (List.range list.length).filterMap (list[·]?) = list := by
    have hmap : (List.range list.length).map (list[·]?) = list.map some :=
      List.ext_getElem (by simp) (by simp)
    rw [← Function.id_comp (list[·]?), ← List.filterMap_map, hmap, List.filterMap_map]
    exact List.filterMap_some
  refine (hindices.filterMap _).trans (List.Perm.of_eq ?_)
  calc ((List.range list.length).filter fun index => (list[index]?).any holds).filterMap (list[·]?)
      = (List.range list.length).filterMap fun index =>
          if (list[index]?).any holds = true then list[index]? else none := List.filterMap_filter
    _ = (List.range list.length).filterMap fun index => (list[index]?).filter holds := by
        congr 1
        funext index
        cases list[index]? <;> rfl
    _ = list.filter holds := by rw [← List.filter_filterMap, hlist]

end Scorer
end Concordance
