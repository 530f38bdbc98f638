import Mathlib.Data.List.Perm.Basic
import Concordance.Proofs.Ranking.Roles
import Concordance.Proofs.Ranking.Turns

/-!
# The scorer of a disjunction

Every part of a disjunction stands at its first document from the place of the disjunction on
(`StandsFrom`), and the parts that are not at their end are queued. The place of the first turn is
therefore the first document of any of them, and a disjunction of faithful cursors is one itself
(`faithful_any`). The parts that have their turns at its place are those that have the document, so
that its score adds up theirs (`sumTurns_spec`). It does so in the order in which the turns are
queued, which depends on the moves before.
-/

namespace Concordance

open scoped Classical in
/-- The role of a disjunction. A document is worth what it is worth to the parts that have it, added
up in some order. -/
def Role.any (roles : List Role) : Role where
  height := heights roles + 1
  members document := ∃ role ∈ roles, role.members document
  worth document value :=
    ∃ values order, WorthEach document (roles.filter fun role => role.members document) values ∧
      List.Perm order values ∧ value = order.foldl (· + ·) 0.0

namespace Scorer

open Role (Near exists_role_of_mem forall₂_exists_mem forall₂_getElem? forall₂_getElem?_of_role
  forall₂_imp_mem forall₂_set)

variable {start bound : Nat} {roles : List Role} {parts : List Scorer} {queue : TurnQueue}

/-- A part stands at its first document from a number on. -/
def StandsFrom (start : Nat) (role : Role) (part : Scorer) : Prop :=
  role.Faithful (some part.place) part ∧ IsFirst role.members start part.place

/-- A cursor at its first document stands there. -/
theorem standsFrom_of_place {role : Role} {part : Scorer} {place : DocumentId}
    (hfirst : IsFirst role.members start place) (h : role.Faithful (some place) part) :
    StandsFrom start role part := by
  rw [StandsFrom, h.place_eq]
  exact ⟨h, hfirst⟩

/-- A part at its first document has passed none behind it. -/
theorem StandsFrom.near {role : Role} {part : Scorer} (h : StandsFrom start role part)
    {later : Nat} (hle : start ≤ later) : Near role.members later role part :=
  ⟨h.1, fun _ hdocument hfrom => h.2.le hdocument (Nat.le_trans hle hfrom)⟩

/-- A part that has passed no document and lies far enough stands at the first one. -/
theorem standsFrom_of_near {role : Role} {part : Scorer} (h : Near role.members start role part)
    (hle : start ≤ part.place.toNat) : StandsFrom start role part :=
  ⟨h.1, h.1.valid.imp_right fun hmember => ⟨hmember, hle⟩, h.2⟩

/-! ## Taking turns -/

/-- A queued turn is that of a part at its place. -/
theorem exists_part_of_queued (hqueue : Queued (parts.map place) queue) {turn : Turn}
    (hturn : turn ∈ queue.toList) :
    ∃ part, parts[turn.index]? = some part ∧ part.place = turn.place := by
  have hplace := hqueue.place_eq hturn
  rw [List.getElem?_map] at hplace
  exact Option.map_eq_some_iff.1 hplace

/-- Parts that are near stand at their first documents if the first turn lies far enough. -/
theorem forall₂_standsFrom
    (hparts : List.Forall₂ (fun role part => Near role.members start role part) roles parts)
    (hqueue : Queued (parts.map place) queue)
    (hfirst : start ≤ ((queue[0]?.map Turn.place).getD noMore).toNat) :
    List.Forall₂ (StandsFrom start) roles parts := by
  refine forall₂_imp_mem hparts fun role _ part hpart hnear => standsFrom_of_near hnear ?_
  have hle := hqueue.first_le (List.mem_map_of_mem hpart)
  exact Nat.le_trans hfirst (UInt32.le_iff_toNat_le.1 hle)

/-- The part whose turn is due moves to its first document. -/
theorem exists_standsFrom_move {due : DocumentId → Bool} {move : Scorer → Scorer} {turn : Turn}
    {part : Scorer}
    (hmove : ∀ role ∈ roles, ∀ part, Near role.members start role part → due part.place = true →
      ∃ place, IsFirst role.members start place ∧ role.Faithful (some place) (move part))
    (hparts : List.Forall₂ (fun role part => Near role.members start role part) roles parts)
    (hqueue : Queued (parts.map place) queue) (hfirst : queue[0]? = some turn)
    (hpart : parts[turn.index]? = some part) (hturn : due turn.place = true) :
    ∃ role, roles[turn.index]? = some role ∧ StandsFrom start role (move part) := by
  obtain ⟨role, hrole, hmem, hnear⟩ := forall₂_getElem? hparts hpart
  obtain ⟨same, hsame, hplace⟩ := exists_part_of_queued hqueue (Queued.mem_of_first hfirst)
  rw [hpart, Option.some.injEq] at hsame
  subst hsame
  rw [← hplace] at hturn
  obtain ⟨place, hplace, hmoved⟩ := hmove role hmem part hnear hturn
  exact ⟨role, hrole, standsFrom_of_place hplace hmoved⟩

/-- Taking the turns before a number takes all parts to their first documents from it on. The turns
that are due are those before the number, at least among the places that are reached. -/
theorem takeTurns_spec {due : DocumentId → Bool} {move : Scorer → Scorer} {lower : Nat}
    (hdue : ∀ place : DocumentId, lower ≤ place.toNat → (due place = true ↔ place.toNat < start))
    (hlower : lower ≤ start) (hstart : start ≤ noMore.toNat)
    (hmove : ∀ role ∈ roles, ∀ part, Near role.members start role part → due part.place = true →
      ∃ place, IsFirst role.members start place ∧ role.Faithful (some place) (move part))
    (hparts : List.Forall₂ (fun role part => Near role.members start role part) roles parts)
    (hreached : ∀ part ∈ parts, lower ≤ part.place.toNat)
    (hqueue : Queued (parts.map place) queue) :
    List.Forall₂ (StandsFrom start) roles (takeTurns due move parts queue).1 ∧
      Queued ((takeTurns due move parts queue).1.map place) (takeTurns due move parts queue).2 := by
  fun_induction takeTurns due move parts queue with
  | case1 parts queue hnone =>
      refine ⟨forall₂_standsFrom hparts hqueue ?_, hqueue⟩
      rwa [hnone]
  | case2 parts queue turn hfirst _ hnone =>
      obtain ⟨part, hpart, -⟩ := exists_part_of_queued hqueue (Queued.mem_of_first hfirst)
      rw [hnone] at hpart
      cases hpart
  | case3 parts queue turn hfirst hturn part hpart moved parts' queue' hstill =>
      -- a part that has moved is not due any more
      obtain ⟨role, -, hstands⟩ :=
        exists_standsFrom_move hmove hparts hqueue hfirst hpart hturn
      have hle := hstands.2.le_toNat hstart
      exact absurd ((hdue _ (Nat.le_trans hlower hle)).1 hstill) (Nat.not_lt.2 hle)
  | case4 parts queue turn hfirst hturn part hpart moved parts' queue' _ ih =>
      obtain ⟨role, hrole, hstands⟩ :=
        exists_standsFrom_move hmove hparts hqueue hfirst hpart hturn
      refine ih (forall₂_set hparts hrole (hstands.near (Nat.le_refl _))) ?_ ?_
      · intro other hother
        rcases List.mem_or_eq_of_mem_set hother with hother | rfl
        · exact hreached other hother
        · exact Nat.le_trans hlower (hstands.2.le_toNat hstart)
      · rw [List.map_set]
        exact hqueue.move hfirst _
  | case5 parts queue turn hfirst hnot =>
      obtain ⟨part, hpart, hplace⟩ := exists_part_of_queued hqueue (Queued.mem_of_first hfirst)
      have hlow := hreached part (List.mem_of_getElem? hpart)
      rw [hplace] at hlow
      refine ⟨forall₂_standsFrom hparts hqueue ?_, hqueue⟩
      rw [hfirst]
      exact Nat.le_of_not_lt (mt (hdue turn.place hlow).2 hnot)

/-! ## The moves of a disjunction -/

/-- A disjunction at a place. -/
def AnyAt (roles : List Role) (current : Option DocumentId) (scorer : Scorer) : Prop :=
  ∃ parts queue, scorer = any parts queue current ∧
    List.Forall₂ (StandsFrom (floor current)) roles parts ∧ Queued (parts.map place) queue ∧
    ∀ place, current = some place → place = noMore ∨ (Role.any roles).members place

/-- A disjunction settles at the first document of any of its parts. -/
theorem anyAt_settleAny (hparts : List.Forall₂ (StandsFrom start) roles parts)
    (hqueue : Queued (parts.map place) queue) (hstart : start ≤ noMore.toNat) :
    ∃ place, IsFirst (Role.any roles).members start place ∧
      AnyAt roles (some place) (settleAny parts queue) := by
  have hle : ∀ part ∈ parts, (queue[0]?.map Turn.place).getD noMore ≤ part.place :=
    fun part hpart => hqueue.first_le (List.mem_map_of_mem hpart)
  have hfirst : IsFirst (Role.any roles).members start
      ((queue[0]?.map Turn.place).getD noMore) := by
    refine ⟨?_, ?_⟩
    · rcases hqueue.first_mem with heq | hmem
      · exact Or.inl heq
      · obtain ⟨part, hpart, heq⟩ := List.mem_map.1 hmem
        rw [← heq]
        obtain ⟨role, hrole, hstands⟩ := exists_role_of_mem hparts hpart
        exact hstands.2.1.imp_right fun hmem => ⟨⟨role, hrole, hmem.1⟩, hmem.2⟩
    · intro other h hfrom
      obtain ⟨role, hrole, hother⟩ := h
      obtain ⟨part, hpart, hstands⟩ := forall₂_exists_mem hparts hrole
      exact UInt32.le_trans (hle part hpart) (hstands.2.le hother hfrom)
  refine ⟨_, hfirst, parts, queue, rfl, ?_, hqueue, fun place hplace => ?_⟩
  · refine forall₂_imp_mem hparts fun role _ part hpart hstands => ⟨hstands.1, ?_⟩
    exact hstands.2.raise (hfirst.le_toNat hstart) (UInt32.le_iff_toNat_le.1 (hle part hpart))
  · exact Option.some.inj hplace ▸ hfirst.1.imp_right And.left

/-- Leaving a document takes the parts that stand there to their first documents behind it. -/
theorem anyAt_leave {current : DocumentId} (hmore : current ≠ noMore)
    (hbound : ∀ role ∈ roles, role.height ≤ bound)
    (hparts : List.Forall₂ (StandsFrom current.toNat) roles parts)
    (hqueue : Queued (parts.map place) queue) :
    ∃ place, IsFirst (Role.any roles).members (after (some current)) place ∧
      AnyAt roles (some place) (nextAny (moveWithin bound .next) parts queue (some current)) := by
  have hroom := after_le_noMore hmore
  have hdue : ∀ place : DocumentId, current.toNat ≤ place.toNat →
      (decide (place = current) = true ↔ place.toNat < after (some current)) := by
    intro place hle
    rw [decide_eq_true_eq, ← UInt32.toNat_inj, after]
    omega
  have hmove : ∀ role ∈ roles, ∀ part, Near role.members (after (some current)) role part →
      decide (part.place = current) = true →
      ∃ place, IsFirst role.members (after (some current)) place ∧
        role.Faithful (some place) (moveWithin bound .next part) := by
    intro role hrole part hnear hhere
    have hfaithful := hnear.1
    rw [of_decide_eq_true hhere] at hfaithful
    exact hfaithful.next (hbound role hrole)
  have hreached : ∀ part ∈ parts, current.toNat ≤ part.place.toNat := by
    intro part hpart
    obtain ⟨role, -, hstands⟩ := exists_role_of_mem hparts hpart
    exact hstands.2.le_toNat (toNat_le_noMore current)
  obtain ⟨hstands, hturns⟩ := takeTurns_spec hdue (Nat.le_succ _) hroom hmove
    (hparts.imp fun _ _ h => h.near (Nat.le_succ _)) hreached hqueue
  have hnext : nextAny (moveWithin bound .next) parts queue (some current) =
      settleAny (takeTurns (· = current) (moveWithin bound .next) parts queue).1
        (takeTurns (· = current) (moveWithin bound .next) parts queue).2 := if_neg hmore
  rw [hnext]
  exact anyAt_settleAny hstands hturns hroom

/-- A disjunction moves to the next document of any of its parts. -/
theorem anyAt_next {current : Option DocumentId} (hbound : ∀ role ∈ roles, role.height ≤ bound)
    (hparts : List.Forall₂ (StandsFrom (floor current)) roles parts)
    (hqueue : Queued (parts.map place) queue)
    (hvalid : ∀ place, current = some place → place = noMore ∨ (Role.any roles).members place) :
    ∃ place, IsFirst (Role.any roles).members (after current) place ∧
      AnyAt roles (some place) (nextAny (moveWithin bound .next) parts queue current) := by
  cases current with
  | none => exact anyAt_settleAny hparts hqueue (Nat.zero_le _)
  | some place =>
      by_cases hmore : place = noMore
      · subst hmore
        -- at its end a disjunction stays, and nothing lies behind `noMore`
        have hend : nextAny (moveWithin bound .next) parts queue (some noMore) =
            any parts queue (some noMore) := by
          simp only [nextAny, if_true]
        rw [hend]
        refine ⟨noMore, ⟨Or.inl rfl, fun other _ hfrom => ?_⟩, parts, queue, rfl, hparts, hqueue,
          hvalid⟩
        exact absurd (UInt32.toNat_lt other) (Nat.not_lt.2 hfrom)
      · exact anyAt_leave hmore hbound hparts hqueue

/-- A disjunction moves to the first document of any of its parts from a target on. -/
theorem anyAt_advance {current : Option DocumentId} {target : DocumentId}
    (hbound : ∀ role ∈ roles, role.height ≤ bound)
    (hparts : List.Forall₂ (StandsFrom (floor current)) roles parts)
    (hqueue : Queued (parts.map place) queue) (hbefore : isBefore current target = true) :
    ∃ place, IsFirst (Role.any roles).members target.toNat place ∧ AnyAt roles (some place)
      (advanceAny (fun target => moveWithin bound (.advance target)) target parts queue) := by
  have hdue : ∀ place : DocumentId, 0 ≤ place.toNat →
      (decide (place < target) = true ↔ place.toNat < target.toNat) :=
    fun place _ => decide_eq_true_iff.trans UInt32.lt_iff_toNat_lt
  have hmove : ∀ role ∈ roles, ∀ part, Near role.members target.toNat role part →
      decide (part.place < target) = true →
      ∃ place, IsFirst role.members target.toNat place ∧
        role.Faithful (some place) (moveWithin bound (.advance target) part) :=
    fun role hrole part hnear hbefore => hnear.1.advance (hbound role hrole) hbefore
  obtain ⟨hstands, hturns⟩ := takeTurns_spec hdue (Nat.zero_le _) (toNat_le_noMore target) hmove
    (hparts.imp fun _ _ h => h.near (floor_le_of_isBefore hbefore)) (fun _ _ => Nat.zero_le _)
    hqueue
  exact anyAt_settleAny hstands hturns (toNat_le_noMore target)

/-! ## The score of a disjunction -/

/-- A disjunction adds up the scores of the parts that have their turns at its place. -/
theorem score_any {place : DocumentId} :
    scoreWithin (bound + 1) (any parts queue (some place)) =
      ((sumTurns (scoreWithin bound) place 0.0 parts queue.toList).1,
        any (sumTurns (scoreWithin bound) place 0.0 parts queue.toList).2 queue (some place)) :=
  rfl

/-- A turn is that of a cursor at its place. -/
theorem exists_faithful_of_turn {turn : Turn}
    (hparts : List.Forall₂ (StandsFrom start) roles parts)
    (hturn : (parts.map place)[turn.index]? = some turn.place) :
    ∃ role part, roles[turn.index]? = some role ∧ parts[turn.index]? = some part ∧ role ∈ roles ∧
      StandsFrom start role part ∧ role.Faithful (some turn.place) part := by
  rw [List.getElem?_map] at hturn
  obtain ⟨part, hpart, hplace⟩ := Option.map_eq_some_iff.1 hturn
  obtain ⟨role, hrole, hmem, hstands⟩ := forall₂_getElem? hparts hpart
  exact ⟨role, part, hrole, hpart, hmem, hstands, hplace ▸ hstands.1⟩

/-- A part that is replaced by one at the same place leaves the places as they are. -/
theorem map_place_set {index : Nat} {part : Scorer} {document : DocumentId}
    (h : (parts.map place)[index]? = some document) (hsame : part.place = document) :
    (parts.set index part).map place = parts.map place := by
  obtain ⟨hindex, hthere⟩ := List.getElem?_eq_some_iff.1 h
  rw [List.map_set, hsame, ← hthere, List.set_getElem_self hindex]

/-- Asking the parts that have their turns at a document keeps all parts where they are, and adds up
what the document is worth to their roles. -/
theorem sumTurns_spec {document : DocumentId} {turns : List Turn}
    (hbound : ∀ role ∈ roles, role.height ≤ bound)
    (hparts : List.Forall₂ (StandsFrom start) roles parts)
    (hturns : ∀ turn ∈ turns, (parts.map place)[turn.index]? = some turn.place) (sum : Float32) :
    List.Forall₂ (StandsFrom start) roles
        (sumTurns (scoreWithin bound) document sum parts turns).2 ∧
      (sumTurns (scoreWithin bound) document sum parts turns).2.map place = parts.map place ∧
      (document ≠ noMore → ∃ values,
        Role.WorthEach document ((turnsAt document turns).filterMap (roles[·]?)) values ∧
          (sumTurns (scoreWithin bound) document sum parts turns).1 =
            values.foldl (· + ·) sum) := by
  induction turns generalizing parts sum with
  | nil => exact ⟨hparts, rfl, fun _ => ⟨[], List.Forall₂.nil, rfl⟩⟩
  | cons turn later ih =>
      have hlater := fun other hother => hturns other (List.mem_cons_of_mem turn hother)
      by_cases hhere : turn.place = document
      · obtain ⟨role, part, hrole, hpart, hmem, hstands, hfaithful⟩ :=
          exists_faithful_of_turn hparts (hturns turn List.mem_cons_self)
        rw [hhere] at hfaithful
        have hasked := hfaithful.score (hbound role hmem)
        have hplaces := map_place_set (hturns turn List.mem_cons_self)
          (hasked.place_eq.trans hhere.symm)
        rw [← hplaces] at hlater
        have hset : List.Forall₂ (StandsFrom start) roles
            (parts.set turn.index (scoreWithin bound part).2) := by
          refine forall₂_set hparts hrole (standsFrom_of_place ?_ hasked)
          rw [← hfaithful.place_eq]
          exact hstands.2
        obtain ⟨hkept, hstay, hsum⟩ := ih hset hlater (sum + (scoreWithin bound part).1)
        rw [sumTurns, if_pos hhere, hpart, turnsAt_cons_here hhere,
          List.filterMap_cons_some hrole]
        refine ⟨hkept, hstay.trans hplaces, fun hmore => ?_⟩
        obtain ⟨values, hvalues, heq⟩ := hsum hmore
        exact ⟨(scoreWithin bound part).1 :: values,
          List.Forall₂.cons (hfaithful.worth (hbound role hmem) hmore) hvalues, heq⟩
      · rw [sumTurns, if_neg hhere, turnsAt_cons_elsewhere hhere]
        exact ih hparts hlater sum

/-- A part that has no turn at a document is not asked. -/
theorem getElem?_sumTurns_of_not_mem {score : Scorer → Float32 × Scorer} {document : DocumentId}
    {turns : List Turn} {index : Nat} (h : index ∉ turnsAt document turns) (sum : Float32) :
    (sumTurns score document sum parts turns).2[index]? = parts[index]? := by
  induction turns generalizing parts sum with
  | nil => rfl
  | cons turn later ih =>
      by_cases hhere : turn.place = document
      · rw [turnsAt_cons_here hhere, List.mem_cons, not_or] at h
        rw [sumTurns, if_pos hhere]
        split
        · rfl
        · rw [ih h.2, List.getElem?_set_ne (Ne.symm h.1)]
      · rw [turnsAt_cons_elsewhere hhere] at h
        rw [sumTurns, if_neg hhere, ih h]

variable {score : Scorer → Float32 × Scorer} {document : DocumentId} {turns : List Turn}

/-- A part that has one turn at a document is asked once. -/
theorem getElem?_sumTurns (hnodup : (turnsAt document turns).Nodup)
    (hturns : ∀ index ∈ turnsAt document turns, index < parts.length) {index : Nat}
    (hindex : index ∈ turnsAt document turns) (sum : Float32) :
    (sumTurns score document sum parts turns).2[index]? =
      parts[index]?.map fun part => (score part).2 := by
  induction turns generalizing parts sum with
  | nil => cases hindex
  | cons turn later ih =>
      by_cases hhere : turn.place = document
      · rw [turnsAt_cons_here hhere] at hnodup hturns hindex
        obtain ⟨hnew, hnodup⟩ := List.nodup_cons.1 hnodup
        have hthere := hturns turn.index List.mem_cons_self
        rw [sumTurns, if_pos hhere, List.getElem?_eq_getElem hthere]
        rcases List.mem_cons.1 hindex with rfl | hindex
        · rw [getElem?_sumTurns_of_not_mem hnew, List.getElem?_set_self hthere,
            List.getElem?_eq_getElem hthere]
          rfl
        · have hne : turn.index ≠ index := fun heq => hnew (heq ▸ hindex)
          refine (ih hnodup (fun other hother => ?_) hindex _).trans ?_
          · rw [List.length_set]
            exact hturns other (List.mem_cons_of_mem _ hother)
          · rw [List.getElem?_set_ne hne]
      · rw [turnsAt_cons_elsewhere hhere] at hnodup hturns hindex
        rw [sumTurns, if_neg hhere, ih hnodup hturns hindex]

/-- The scores of the parts that have one turn each at a document are added up in the order of the
turns. -/
theorem sumTurns_fst (hnodup : (turnsAt document turns).Nodup)
    (hturns : ∀ index ∈ turnsAt document turns, index < parts.length) (sum : Float32) :
    (sumTurns score document sum parts turns).1 = ((turnsAt document turns).filterMap
      fun index => parts[index]?.map fun part => (score part).1).foldl (· + ·) sum := by
  induction turns generalizing parts sum with
  | nil => rfl
  | cons turn later ih =>
      by_cases hhere : turn.place = document
      · rw [turnsAt_cons_here hhere] at hnodup hturns
        obtain ⟨hnew, hnodup⟩ := List.nodup_cons.1 hnodup
        have hthere := hturns turn.index List.mem_cons_self
        have hpart := List.getElem?_eq_getElem hthere
        rw [sumTurns, if_pos hhere, turnsAt_cons_here hhere, List.filterMap_cons, hpart]
        dsimp only [Option.map_some]
        rw [List.foldl_cons]
        refine (ih hnodup (fun other hother => ?_) _).trans ?_
        · rw [List.length_set]
          exact hturns other (List.mem_cons_of_mem _ hother)
        · congr 1
          refine List.filterMap_congr fun other hother => ?_
          -- the later turns are those of other parts
          have hne : turn.index ≠ other := fun heq => hnew (heq ▸ hother)
          rw [List.getElem?_set_ne hne]
      · rw [turnsAt_cons_elsewhere hhere] at hnodup hturns ⊢
        rw [sumTurns, if_neg hhere, ih hnodup hturns]

/-- Asked again at a document, the parts that have their turns there answer the same. -/
theorem sumTurns_again (hbound : ∀ role ∈ roles, role.height ≤ bound)
    (hparts : List.Forall₂ (StandsFrom start) roles parts)
    (hqueue : Queued (parts.map place) queue) (hmore : document ≠ noMore) (sum : Float32) :
    (sumTurns (scoreWithin bound) document sum
        (sumTurns (scoreWithin bound) document sum parts queue.toList).2 queue.toList).1 =
      (sumTurns (scoreWithin bound) document sum parts queue.toList).1 := by
  have hnodup := nodup_turnsAt hqueue.nodup document
  have hthere : ∀ index ∈ turnsAt document queue.toList,
      (parts.map place)[index]? = some document :=
    fun index hindex => (hqueue.mem_turnsAt hmore).1 hindex
  have hturns : ∀ index ∈ turnsAt document queue.toList, index < parts.length := by
    intro index hindex
    obtain ⟨hlt, -⟩ := List.getElem?_eq_some_iff.1 (hthere index hindex)
    rwa [List.length_map] at hlt
  have hstay : (sumTurns (scoreWithin bound) document sum parts queue.toList).2.map place =
      parts.map place :=
    (sumTurns_spec hbound hparts (fun _ => hqueue.place_eq) sum).2.1
  have hlength := congrArg List.length hstay
  rw [List.length_map, List.length_map] at hlength
  rw [sumTurns_fst hnodup (by rwa [hlength]), sumTurns_fst hnodup hturns]
  congr 1
  refine List.filterMap_congr fun index hindex => ?_
  obtain ⟨role, part, -, hpart, hmem, -, hfaithful⟩ :=
    @exists_faithful_of_turn _ _ _ ⟨document, index⟩ hparts (hthere index hindex)
  rw [getElem?_sumTurns hnodup hturns hindex, hpart]
  exact congrArg some (hfaithful.again (hbound role hmem) hmore)

/-- The parts that have their turns at a document are those that have it, in some order. -/
theorem filterMap_turnsAt_perm (hparts : List.Forall₂ (StandsFrom document.toNat) roles parts)
    (hqueue : Queued (parts.map place) queue) (hmore : document ≠ noMore)
    {holds : Role → Bool} (hholds : ∀ role, holds role = true ↔ role.members document) :
    ((turnsAt document queue.toList).filterMap (roles[·]?)).Perm (roles.filter holds) := by
  refine perm_filterMap_getElem? (nodup_turnsAt hqueue.nodup document) fun index => ?_
  rw [hqueue.mem_turnsAt hmore, List.getElem?_map]
  constructor
  · intro hplace
    obtain ⟨part, hpart, hplace⟩ := Option.map_eq_some_iff.1 hplace
    obtain ⟨role, hrole, -, hstands⟩ := forall₂_getElem? hparts hpart
    exact ⟨role, hrole, (hholds role).2 ((hstands.2.eq_iff hmore).1 hplace)⟩
  · intro hfound
    obtain ⟨role, hrole, hmember⟩ := hfound
    obtain ⟨part, hpart, hstands⟩ := forall₂_getElem?_of_role hparts hrole
    rw [hpart, Option.map_some, (hstands.2.eq_iff hmore).2 ((hholds role).1 hmember)]

/-- A disjunction is a cursor over the documents of any of its parts. -/
theorem invariant_anyAt (roles : List Role)
    (hbelow : ∀ role ∈ roles, ∀ document, role.members document → document < noMore) :
    (Role.any roles).Invariant (AnyAt roles) where
  below := by
    intro document hfound
    obtain ⟨role, hrole, hmem⟩ := hfound
    exact hbelow role hrole document hmem
  height := by
    intro current scorer hfound
    obtain ⟨parts, queue, rfl, hparts, -⟩ := hfound
    rw [height, Role.heights_eq (hparts.imp fun _ _ h => ⟨_, h.1⟩), Role.any]
  document := by
    intro current scorer hfound
    obtain ⟨parts, queue, rfl, -⟩ := hfound
    rfl
  valid := by
    intro place scorer hfound
    obtain ⟨parts, queue, rfl, -, -, hvalid⟩ := hfound
    exact hvalid place rfl
  next := by
    intro current scorer bound hfound hheight
    obtain ⟨parts, queue, rfl, hparts, hqueue, hvalid⟩ := hfound
    obtain ⟨bound, rfl, hbound⟩ := Role.exists_bound hheight
    rw [next_any]
    exact anyAt_next hbound hparts hqueue hvalid
  advance := by
    intro current scorer bound target hfound hheight hbefore
    obtain ⟨parts, queue, rfl, hparts, hqueue, -⟩ := hfound
    obtain ⟨bound, rfl, hbound⟩ := Role.exists_bound hheight
    rw [advance_any hbefore]
    exact anyAt_advance hbound hparts hqueue hbefore
  score := by
    intro current scorer bound hfound hheight
    obtain ⟨parts, queue, rfl, hparts, hqueue, hvalid⟩ := hfound
    obtain ⟨bound, rfl, hbound⟩ := Role.exists_bound hheight
    cases current with
    | none => exact ⟨parts, queue, rfl, hparts, hqueue, hvalid⟩
    | some place =>
        obtain ⟨hkept, hstay, -⟩ := sumTurns_spec hbound hparts (fun _ => hqueue.place_eq) 0.0
        rw [score_any]
        exact ⟨_, queue, rfl, hkept, hstay ▸ hqueue, hvalid⟩
  worth := by
    intro place scorer bound hfound hheight hmore
    obtain ⟨parts, queue, rfl, hparts, hqueue, -⟩ := hfound
    obtain ⟨bound, rfl, hbound⟩ := Role.exists_bound hheight
    obtain ⟨-, -, hsum⟩ := sumTurns_spec hbound hparts (fun _ => hqueue.place_eq) 0.0
    obtain ⟨values, hvalues, heq⟩ := hsum hmore
    rw [score_any]
    have hperm := filterMap_turnsAt_perm hparts hqueue hmore fun role =>
      @decide_eq_true_iff _ (Classical.propDecidable (role.members place))
    obtain ⟨sorted, hsorted, horder⟩ := List.perm_comp_forall₂ hperm.symm hvalues
    exact ⟨sorted, values, hsorted, horder.symm, heq⟩
  again := by
    intro place scorer bound hfound hheight hmore
    obtain ⟨parts, queue, rfl, hparts, hqueue, -⟩ := hfound
    obtain ⟨bound, rfl, hbound⟩ := Role.exists_bound hheight
    rw [score_any, score_any]
    exact sumTurns_again hbound hparts hqueue hmore 0.0

/-- The parts of a disjunction have made their first move when it is built. -/
theorem faithful_any {roles : List Role} {parts : List Scorer}
    (hbelow : ∀ role ∈ roles, ∀ document, role.members document → document < noMore)
    (h : List.Forall₂ (fun role part => role.Faithful none part) roles parts) :
    (Role.any roles).Faithful none (disjunction parts) := by
  refine ⟨AnyAt roles, invariant_anyAt roles hbelow, _, _, rfl, ?_, Queued.empty.turnsFrom _,
    fun _ hplace => ?_⟩
  · rw [List.forall₂_map_right_iff]
    refine h.imp fun role part hpart => ?_
    -- a part that has moved once stands at its first document
    obtain ⟨place, hplace, hmoved⟩ := hpart.next (Nat.le_of_eq hpart.height.symm)
    exact standsFrom_of_place hplace hmoved
  · cases hplace

end Scorer
end Concordance
