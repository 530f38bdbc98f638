import Concordance.Proofs.Ranking.Roles

/-!
# The scorer of a conjunction

While the parts of a conjunction are brought into line, no part passes a document that is common to
all of them, and the target does not pass one either; the parts that are not to be looked at again
stand at the target (`align_spec`). So they meet at the first common document, and a conjunction of
faithful cursors is one itself (`faithful_both`).
-/

namespace Concordance

namespace Role

/-- The role of a conjunction. Its documents are worth what they are worth to all parts, added up
in the order of the parts. -/
def both (roles : List Role) : Role where
  height := heights roles + 1
  members document := roles ≠ [] ∧ ∀ role ∈ roles, role.members document
  worth document value :=
    ∃ values, WorthEach document roles values ∧ value = values.foldl (· + ·) (-0.0)

end Role

namespace Scorer

open Role (Near Somewhere forall₂_set forall₂_getElem? forall₂_exists_mem forall₂_imp_mem)

variable {common : DocumentId → Prop} {start bound : Nat} {roles : List Role}
  {parts : List Scorer}

/-! ## Moving all parts -/

/-- What is known of the parts before all of them are moved. -/
def Moves (start : Nat) (move : Scorer → Scorer) (role : Role) (part : Scorer) : Prop :=
  role.Somewhere part ∧
    ∃ place, IsFirst role.members start place ∧ role.Faithful (some place) (move part)

/-- A part at its end leaves the others where they are. -/
theorem moveAll_cons_end {move : Scorer → Scorer} {farthest : DocumentId} {part : Scorer}
    {rest : List Scorer} (h : (move part).place = noMore) :
    moveAll move farthest (part :: rest) = (move part :: rest, none) :=
  if_pos h

/-- A part that is not at its end is followed by the others. -/
theorem moveAll_cons {move : Scorer → Scorer} {farthest : DocumentId} {part : Scorer}
    {rest : List Scorer} (h : ¬ (move part).place = noMore) :
    moveAll move farthest (part :: rest) =
      (move part :: (moveAll move (max farthest (move part).place) rest).1,
        (moveAll move (max farthest (move part).place) rest).2) :=
  if_neg h

/-- Moving parts keeps them cursors. -/
theorem somewhere_moveAll {move : Scorer → Scorer} {farthest : DocumentId}
    (h : List.Forall₂ (Moves start move) roles parts) :
    List.Forall₂ Somewhere roles (moveAll move farthest parts).1 := by
  induction h generalizing farthest with
  | nil => exact List.Forall₂.nil
  | @cons role part roles rest hfirst hrest ih =>
      obtain ⟨-, place, -, hmoved⟩ := hfirst
      by_cases hend : (move part).place = noMore
      · rw [moveAll_cons_end hend]
        exact List.Forall₂.cons ⟨_, hmoved⟩ (hrest.imp fun _ _ h => h.1)
      · rw [moveAll_cons hend]
        exact List.Forall₂.cons ⟨_, hmoved⟩ ih

/-- If a part finds no further match, there is no common document left. -/
theorem moveAll_none {move : Scorer → Scorer} {farthest : DocumentId}
    (h : List.Forall₂ (Moves start move) roles parts)
    (hcommon : ∀ document, common document → ∀ role ∈ roles, role.members document)
    (hnone : (moveAll move farthest parts).2 = none) :
    ∀ document, common document → document.toNat < start := by
  induction h generalizing farthest with
  | nil => cases hnone
  | @cons role part roles rest hfirst hrest ih =>
      obtain ⟨-, place, hplace, hmoved⟩ := hfirst
      by_cases hend : (move part).place = noMore
      · intro document hdocument
        have hmem := hcommon document hdocument role List.mem_cons_self
        have hlt := UInt32.lt_iff_toNat_lt.1 (hmoved.below document hmem)
        refine Nat.lt_of_not_le fun hstart => ?_
        have hle := UInt32.le_iff_toNat_le.1 (hplace.le hmem hstart)
        rw [hmoved.place_eq] at hend
        rw [hend] at hle
        omega
      · rw [moveAll_cons hend] at hnone
        exact ih (fun document hdocument role hrole =>
          hcommon document hdocument role (List.mem_cons_of_mem _ hrole)) hnone

/-- Otherwise no part has passed a common document, nor has the farthest place. -/
theorem moveAll_some {move : Scorer → Scorer} {farthest target : DocumentId}
    (h : List.Forall₂ (Moves start move) roles parts)
    (hcommon : ∀ document, common document → ∀ role ∈ roles, role.members document)
    (hfarthest : ∀ document, common document → start ≤ document.toNat → farthest ≤ document)
    (hsome : (moveAll move farthest parts).2 = some target) :
    List.Forall₂ (Near common start) roles (moveAll move farthest parts).1 ∧ farthest ≤ target ∧
      ∀ document, common document → start ≤ document.toNat → target ≤ document := by
  induction h generalizing farthest with
  | nil =>
      obtain rfl := Option.some.inj hsome
      exact ⟨List.Forall₂.nil, UInt32.le_refl _, hfarthest⟩
  | @cons role part roles rest hfirst hrest ih =>
      obtain ⟨-, place, hplace, hmoved⟩ := hfirst
      by_cases hend : (move part).place = noMore
      · rw [moveAll_cons_end hend] at hsome
        cases hsome
      · rw [moveAll_cons hend] at hsome ⊢
        rw [hmoved.place_eq] at hsome ⊢
        have hpassed : ∀ document, common document → start ≤ document.toNat →
            place ≤ document := fun document hdocument hstart =>
          hplace.le (hcommon document hdocument role List.mem_cons_self) hstart
        have hmax : ∀ document, common document → start ≤ document.toNat →
            max farthest place ≤ document := by
          intro document hdocument hstart
          rw [UInt32.max_def]
          split
          · exact hpassed document hdocument hstart
          · exact hfarthest document hdocument hstart
        obtain ⟨hnear, hle, htarget⟩ := ih (fun document hdocument role hrole =>
          hcommon document hdocument role (List.mem_cons_of_mem _ hrole)) hmax hsome
        refine ⟨List.Forall₂.cons ⟨?_, ?_⟩ hnear, ?_, htarget⟩
        · rwa [hmoved.place_eq]
        · rwa [hmoved.place_eq]
        · refine UInt32.le_trans ?_ hle
          rw [UInt32.max_def]
          split
          · assumption
          · exact UInt32.le_refl _

/-! ## Alignment -/

/-- Where the parts of a conjunction stand: at its place, unless there is no match left. -/
def PartAt (current : Option DocumentId) (role : Role) (part : Scorer) : Prop :=
  ∃ place, role.Faithful place part ∧ (current = some noMore ∨ place = current)

/-- The parts of an index and of those after it, counted around, are the ones to be looked at; all
others stand at the target. -/
def Checked (parts : List Scorer) (target : DocumentId) (index unchecked : Nat) : Prop :=
  ∀ other (h : other < parts.length), parts[other].place = target ∨
    ∃ steps < unchecked, other = (index + steps) % parts.length

/-- The other parts have to be looked at again for a new target. -/
theorem checked_beyond {parts : List Scorer} {index : Nat} {moved : Scorer}
    (hindex : index < parts.length) :
    Checked (parts.set index moved) moved.place
      ((index + 1) % (parts.set index moved).length) ((parts.set index moved).length - 1) := by
  intro other hother
  rw [List.length_set] at hother ⊢
  by_cases hsame : other = index
  · subst hsame
    left
    rw [List.getElem_set_self]
  · right
    by_cases hlt : index < other
    · refine ⟨other - index - 1, by omega, ?_⟩
      rw [Nat.mod_add_mod, show index + 1 + (other - index - 1) = other by omega,
        Nat.mod_eq_of_lt hother]
    · refine ⟨other + parts.length - index - 1, by omega, ?_⟩
      rw [Nat.mod_add_mod,
        show index + 1 + (other + parts.length - index - 1) = other + parts.length by omega,
        Nat.add_mod_right, Nat.mod_eq_of_lt hother]

/-- A part that has been brought to the target need not be looked at again. -/
theorem checked_step {parts : List Scorer} {target : DocumentId} {index unchecked : Nat}
    {moved : Scorer} (h : Checked parts target index (unchecked + 1))
    (hindex : index < parts.length) (hmoved : moved.place = target) :
    Checked (parts.set index moved) target ((index + 1) % (parts.set index moved).length)
      unchecked := by
  intro other hother
  rw [List.length_set] at hother ⊢
  by_cases hsame : other = index
  · subst hsame
    left
    rw [List.getElem_set_self]
    exact hmoved
  · rw [List.getElem_set_ne (Ne.symm hsame)]
    rcases h other hother with hplace | ⟨steps, hsteps, hother'⟩
    · exact Or.inl hplace
    · right
      cases steps with
      | zero =>
          rw [Nat.add_zero, Nat.mod_eq_of_lt hindex] at hother'
          exact absurd hother' hsame
      | succ steps =>
          refine ⟨steps, by omega, ?_⟩
          rw [Nat.mod_add_mod, hother', show index + (steps + 1) = index + 1 + steps by omega]

/-- A part that is brought to the target passes no common document. -/
theorem near_moveWithin {role : Role} {part : Scorer} {target : DocumentId}
    (h : Near common start role part) (hbound : role.height ≤ bound)
    (hcommon : ∀ document, common document → role.members document)
    (htarget : ∀ document, common document → start ≤ document.toNat → target ≤ document) :
    Near common start role (moveWithin bound (.advance target) part) ∧
      target ≤ (moveWithin bound (.advance target) part).place := by
  by_cases hbefore : isBefore part.document target = true
  · rw [h.1.document] at hbefore
    obtain ⟨place, hfirst, hmoved⟩ := h.1.advance hbound hbefore
    refine ⟨⟨?_, fun document hdocument hstart => ?_⟩, ?_⟩
    · rwa [hmoved.place_eq]
    · rw [hmoved.place_eq]
      exact hfirst.le (hcommon document hdocument)
        (UInt32.le_iff_toNat_le.1 (htarget document hdocument hstart))
    · rw [hmoved.place_eq]
      exact UInt32.le_iff_toNat_le.2 (hfirst.le_toNat (toNat_le_noMore target))
  · rw [moveWithin_of_not_before hbefore]
    refine ⟨h, UInt32.not_lt.1 fun hlt => hbefore ?_⟩
    rw [h.1.document]
    exact decide_eq_true hlt

/-- Aligning finds the first common document. -/
theorem align_spec {target : DocumentId} {index unchecked : Nat}
    (hcommon : ∀ document, common document ↔ ∀ role ∈ roles, role.members document)
    (hbound : ∀ role ∈ roles, role.height ≤ bound)
    (hparts : List.Forall₂ (Near common start) roles parts) (hindex : index < parts.length)
    (hstart : start ≤ target.toNat)
    (htarget : ∀ document, common document → start ≤ document.toNat → target ≤ document)
    (hchecked : Checked parts target index unchecked) :
    ∃ place, (align (fun target => moveWithin bound (.advance target)) parts target index
        unchecked).2 = place ∧ IsFirst common start place ∧
      List.Forall₂ (PartAt (some place)) roles
        (align (fun target => moveWithin bound (.advance target)) parts target index
          unchecked).1 := by
  fun_induction align (fun target => moveWithin bound (.advance target)) parts target index
    unchecked with
  | case1 parts target index =>
      -- nothing is unchecked any more: all parts stand on the target
      have hall : ∀ part ∈ parts, part.place = target := by
        intro part hpart
        obtain ⟨other, hother, rfl⟩ := List.getElem_of_mem hpart
        rcases hchecked other hother with hplace | ⟨steps, hsteps, -⟩
        · exact hplace
        · exact absurd hsteps (Nat.not_lt_zero steps)
      refine ⟨target, rfl, ⟨?_, htarget⟩, ?_⟩
      · by_cases hmore : target = noMore
        · exact Or.inl hmore
        · refine Or.inr ⟨(hcommon target).2 fun role hrole => ?_, hstart⟩
          obtain ⟨part, hpart, hnear⟩ := forall₂_exists_mem hparts hrole
          have hvalid := hnear.1.valid
          rw [hall part hpart] at hvalid
          exact hvalid.resolve_left hmore
      · refine forall₂_imp_mem hparts fun role _ part hpart hnear => ⟨some target, ?_, Or.inr rfl⟩
        have hfaithful := hnear.1
        rwa [hall part hpart] at hfaithful
  | case2 parts target index unchecked hnone =>
      rw [List.getElem?_eq_none_iff] at hnone
      omega
  | case3 parts target index unchecked part hpart moved parts' hend =>
      obtain ⟨role, hrole, hmem, hnear⟩ := forall₂_getElem? hparts hpart
      obtain ⟨hmoved, -⟩ := near_moveWithin hnear (hbound role hmem)
        (fun document hdocument => (hcommon document).1 hdocument role hmem) htarget
      rw [← ite_moveWithin] at hmoved
      -- a part is exhausted, and with it the conjunction
      refine ⟨noMore, rfl, ⟨Or.inl rfl, ?_⟩, ?_⟩
      · exact fun document hdocument hstart => hend ▸ hmoved.2 document hdocument hstart
      · exact (forall₂_set hparts hrole hmoved).imp fun _ _ h => ⟨_, h.1, Or.inl rfl⟩
  | case4 parts target index unchecked part hpart moved parts' hend hbeyond ih =>
      obtain ⟨role, hrole, hmem, hnear⟩ := forall₂_getElem? hparts hpart
      obtain ⟨hmoved, -⟩ := near_moveWithin hnear (hbound role hmem)
        (fun document hdocument => (hcommon document).1 hdocument role hmem) htarget
      rw [← ite_moveWithin] at hmoved
      -- a part moved beyond the target, which becomes the new one
      have hlength : parts'.length = parts.length := List.length_set
      refine ih (forall₂_set hparts hrole hmoved) ?_ ?_ hmoved.2 (checked_beyond hindex)
      · rw [hlength]
        exact Nat.mod_lt _ (by omega)
      · exact Nat.le_trans hstart (Nat.le_of_lt (UInt32.lt_iff_toNat_lt.1 hbeyond))
  | case5 parts target index unchecked part hpart moved parts' hend hbeyond ih =>
      obtain ⟨role, hrole, hmem, hnear⟩ := forall₂_getElem? hparts hpart
      obtain ⟨hmoved, hle⟩ := near_moveWithin hnear (hbound role hmem)
        (fun document hdocument => (hcommon document).1 hdocument role hmem) htarget
      rw [← ite_moveWithin] at hmoved hle
      -- the part stands on the target now, one fewer is unchecked
      have hlength : parts'.length = parts.length := List.length_set
      refine ih (forall₂_set hparts hrole hmoved) ?_ hstart htarget
        (checked_step hchecked hindex (UInt32.le_antisymm (UInt32.not_lt.1 hbeyond) hle))
      rw [hlength]
      exact Nat.mod_lt _ (by omega)

/-! ## The moves of a conjunction -/

/-- A conjunction at a place. -/
def BothAt (roles : List Role) (current : Option DocumentId) (scorer : Scorer) : Prop :=
  ∃ parts, scorer = both parts current ∧ List.Forall₂ (PartAt current) roles parts ∧
    ∀ place, current = some place → place = noMore ∨ (Role.both roles).members place

/-- A part of a conjunction is a cursor at some place. -/
theorem PartAt.somewhere {current : Option DocumentId} {role : Role} {part : Scorer}
    (h : PartAt current role part) : role.Somewhere part := by
  obtain ⟨place, hfaithful, -⟩ := h
  exact ⟨place, hfaithful⟩

/-- A part stands where the conjunction stands, unless that is at its end. -/
theorem PartAt.faithful {current : Option DocumentId} {role : Role} {part : Scorer}
    (h : PartAt current role part) (hmore : current ≠ some noMore) :
    role.Faithful current part := by
  obtain ⟨place, hfaithful, hplace⟩ := h
  exact hplace.resolve_left hmore ▸ hfaithful

/-- At a match, all parts of a conjunction stand there. -/
theorem PartAt.forall₂_faithful {place : DocumentId}
    (h : List.Forall₂ (PartAt (some place)) roles parts) (hmore : place ≠ noMore) :
    List.Forall₂ (fun role part => role.Faithful (some place) part) roles parts :=
  h.imp fun _ _ hpart => hpart.faithful fun heq => hmore (Option.some.inj heq)

/-- A conjunction without a further match is at its end. -/
theorem bothAt_noMore (hparts : List.Forall₂ Somewhere roles parts)
    (hnone : ∀ document, (Role.both roles).members document → document.toNat < start) :
    ∃ place, IsFirst (Role.both roles).members start place ∧
      BothAt roles (some place) (both parts (some noMore)) := by
  refine ⟨noMore, ⟨Or.inl rfl, fun document hdocument hstart => ?_⟩, parts, rfl, ?_, ?_⟩
  · exact absurd (hnone document hdocument) (Nat.not_lt.2 hstart)
  · refine hparts.imp fun role part hpart => ?_
    obtain ⟨place, hfaithful⟩ := hpart
    exact ⟨place, hfaithful, Or.inl rfl⟩
  · rintro place ⟨⟩
    exact Or.inl rfl

/-- A conjunction whose parts have passed no match settles at the first one. -/
theorem bothAt_settleBoth {target : DocumentId} (hbound : ∀ role ∈ roles, role.height ≤ bound)
    (hparts : List.Forall₂ (Near (Role.both roles).members start) roles parts)
    (hstart : start ≤ target.toNat)
    (htarget : ∀ document, (Role.both roles).members document → start ≤ document.toNat →
      target ≤ document) :
    ∃ place, IsFirst (Role.both roles).members start place ∧ BothAt roles (some place)
      (settleBoth (fun target => moveWithin bound (.advance target)) parts (some target)) := by
  cases hparts with
  | nil =>
      refine bothAt_noMore List.Forall₂.nil ?_
      intro document h
      obtain ⟨hne, -⟩ := h
      exact absurd rfl hne
  | @cons role part roles rest hfirst hrest =>
      have hcommon : ∀ document, (Role.both (role :: roles)).members document ↔
          ∀ other ∈ role :: roles, other.members document :=
        fun document => and_iff_right (List.cons_ne_nil role roles)
      obtain ⟨place, hplace, hisFirst, haligned⟩ := align_spec hcommon hbound
        (List.Forall₂.cons hfirst hrest) (Nat.succ_pos _) hstart htarget
        (fun other hother => Or.inr ⟨other, hother, by
          rw [Nat.zero_add, Nat.mod_eq_of_lt hother]⟩ :
          Checked (part :: rest) target 0 (part :: rest).length)
      refine ⟨place, hisFirst, _, ?_, haligned, ?_⟩
      · rw [← hplace]
        rfl
      · rintro _ ⟨⟩
        exact hisFirst.1.imp_right And.left

/-- Moving all parts and settling finds the first match. -/
theorem bothAt_moveAll {move : Scorer → Scorer} {farthest : DocumentId}
    (hbound : ∀ role ∈ roles, role.height ≤ bound)
    (hparts : List.Forall₂ (Moves farthest.toNat move) roles parts) :
    ∃ place, IsFirst (Role.both roles).members farthest.toNat place ∧ BothAt roles (some place)
      (settleBoth (fun target => moveWithin bound (.advance target))
        (moveAll move farthest parts).1 (moveAll move farthest parts).2) := by
  have hcommon : ∀ document, (Role.both roles).members document →
      ∀ role ∈ roles, role.members document := fun _ h => h.2
  cases hreached : (moveAll move farthest parts).2 with
  | none => exact bothAt_noMore (somewhere_moveAll hparts) (moveAll_none hparts hcommon hreached)
  | some target =>
      obtain ⟨hnear, hle, htarget⟩ := moveAll_some hparts hcommon
        (fun document _ hstart => UInt32.le_iff_toNat_le.2 hstart) hreached
      exact bothAt_settleBoth hbound hnear (UInt32.le_iff_toNat_le.1 hle) htarget

/-- At its end a conjunction stays. -/
theorem nextBoth_noMore {next : Scorer → Scorer} {advance : DocumentId → Scorer → Scorer} :
    nextBoth next advance parts (some noMore) = both parts (some noMore) := by
  simp only [nextBoth, if_true]

/-- A conjunction moves on by moving its first part. -/
theorem nextBoth_cons {next : Scorer → Scorer} {advance : DocumentId → Scorer → Scorer}
    {part : Scorer} {rest : List Scorer} {place : DocumentId} (h : place ≠ noMore) :
    nextBoth next advance (part :: rest) (some place) =
      settleBoth advance (next part :: rest)
        (if (next part).place = noMore then none else some (next part).place) :=
  if_neg h

/-- From a match on, a conjunction moves its first part and brings the others to it. -/
theorem bothAt_next_some {place : DocumentId} (hbound : ∀ role ∈ roles, role.height ≤ bound)
    (hmore : place ≠ noMore)
    (hparts : List.Forall₂ (fun role part => role.Faithful (some place) part) roles parts) :
    ∃ later, IsFirst (Role.both roles).members (after (some place)) later ∧
      BothAt roles (some later) (nextBoth (moveWithin bound .next)
        (fun target => moveWithin bound (.advance target)) parts (some place)) := by
  cases hparts with
  | nil =>
      have hend : nextBoth (moveWithin bound .next)
          (fun target => moveWithin bound (.advance target)) [] (some place) =
            both [] (some noMore) := if_neg hmore
      rw [hend]
      exact bothAt_noMore List.Forall₂.nil fun document h => absurd rfl h.1
  | @cons role part roles rest hfirst hrest =>
      obtain ⟨first, hisFirst, hmoved⟩ := hfirst.next (hbound role List.mem_cons_self)
      have hpassed : ∀ document, (Role.both (role :: roles)).members document →
          after (some place) ≤ document.toNat → first ≤ document := fun document h hstart =>
        hisFirst.le (h.2 role List.mem_cons_self) hstart
      rw [nextBoth_cons hmore, hmoved.place_eq]
      by_cases hend : first = noMore
      · rw [if_pos hend]
        refine bothAt_noMore (List.Forall₂.cons ⟨_, hmoved⟩ (hrest.imp fun _ _ h => ⟨_, h⟩)) ?_
        intro document hdocument
        refine Nat.lt_of_not_le fun hstart => ?_
        have hlt := hmoved.below document (hdocument.2 role List.mem_cons_self)
        have hle := hpassed document hdocument hstart
        rw [hend] at hle
        exact absurd hlt (UInt32.not_lt.2 hle)
      · rw [if_neg hend]
        refine bothAt_settleBoth hbound (List.Forall₂.cons ⟨?_, ?_⟩ ?_)
          (hisFirst.le_toNat (after_le_noMore hmore)) hpassed
        · rwa [hmoved.place_eq]
        · rwa [hmoved.place_eq]
        · refine hrest.imp fun other rest hother => ⟨?_, fun document _ hstart => ?_⟩
          · rwa [hother.place_eq]
          · rw [hother.place_eq]
            exact UInt32.le_iff_toNat_le.2 (Nat.le_of_succ_le hstart)

/-- A conjunction moves to the next common document. -/
theorem bothAt_next {current : Option DocumentId} (hbound : ∀ role ∈ roles, role.height ≤ bound)
    (hparts : List.Forall₂ (PartAt current) roles parts) :
    ∃ place, IsFirst (Role.both roles).members (after current) place ∧ BothAt roles (some place)
      (nextBoth (moveWithin bound .next) (fun target => moveWithin bound (.advance target)) parts
        current) := by
  cases current with
  | none =>
      have hmoves : List.Forall₂ (Moves (0 : DocumentId).toNat (moveWithin bound .next)) roles
          parts := by
        refine forall₂_imp_mem hparts fun role hrole part _ hpart => ⟨hpart.somewhere, ?_⟩
        exact (hpart.faithful (fun h => nomatch h)).next (hbound role hrole)
      exact bothAt_moveAll hbound hmoves
  | some place =>
      by_cases hmore : place = noMore
      · subst hmore
        rw [nextBoth_noMore]
        exact bothAt_noMore (hparts.imp fun _ _ h => h.somewhere)
          fun document _ => UInt32.toNat_lt document
      · exact bothAt_next_some hbound hmore (PartAt.forall₂_faithful hparts hmore)

/-- A conjunction is a cursor over the documents common to its parts. -/
theorem invariant_bothAt (roles : List Role)
    (hbelow : ∀ role ∈ roles, ∀ document, role.members document → document < noMore) :
    (Role.both roles).Invariant (BothAt roles) where
  below := by
    intro document hfound
    obtain ⟨hne, hall⟩ := hfound
    obtain ⟨role, hrole⟩ := List.exists_mem_of_ne_nil roles hne
    exact hbelow role hrole document (hall role hrole)
  height := by
    intro current scorer hfound
    obtain ⟨parts, rfl, hparts, -⟩ := hfound
    rw [height, Role.heights_eq (hparts.imp fun _ _ h => h.somewhere), Role.both]
  document := by
    intro current scorer hfound
    obtain ⟨parts, rfl, -, -⟩ := hfound
    rfl
  valid := by
    intro place scorer hfound
    obtain ⟨parts, rfl, -, hvalid⟩ := hfound
    exact hvalid place rfl
  next := by
    intro current scorer bound hfound hheight
    obtain ⟨parts, rfl, hparts, hvalid⟩ := hfound
    obtain ⟨bound, rfl, hbound⟩ := Role.exists_bound hheight
    rw [next_both]
    exact bothAt_next hbound hparts
  advance := by
    intro current scorer bound target hfound hheight hbefore
    obtain ⟨parts, rfl, hparts, hvalid⟩ := hfound
    obtain ⟨bound, rfl, hbound⟩ := Role.exists_bound hheight
    rw [advance_both hbefore]
    refine bothAt_moveAll hbound ?_
    refine forall₂_imp_mem hparts fun role hrole part _ hpart => ⟨hpart.somewhere, ?_⟩
    refine (hpart.faithful ?_).advance (hbound role hrole) hbefore
    rintro rfl
    exact absurd (of_decide_eq_true hbefore) (noMore_not_lt target)
  score := by
    intro current scorer bound hfound hheight
    obtain ⟨parts, rfl, hparts, hvalid⟩ := hfound
    obtain ⟨bound, rfl, hbound⟩ := Role.exists_bound hheight
    rw [score_both]
    refine ⟨_, rfl, List.forall₂_map_right_iff.2 ?_, hvalid⟩
    refine forall₂_imp_mem hparts fun role hrole part _ hpart => ?_
    obtain ⟨place, hfaithful, hplace⟩ := hpart
    exact ⟨place, hfaithful.score (hbound role hrole), hplace⟩
  worth := by
    intro place scorer bound hfound hheight hmore
    obtain ⟨parts, rfl, hparts, -⟩ := hfound
    obtain ⟨bound, rfl, hbound⟩ := Role.exists_bound hheight
    rw [score_both]
    exact ⟨_, worthEach_map_scoreWithin (PartAt.forall₂_faithful hparts hmore) hbound hmore, rfl⟩
  again := by
    intro place scorer bound hfound hheight hmore
    obtain ⟨parts, rfl, hparts, -⟩ := hfound
    obtain ⟨bound, rfl, hbound⟩ := Role.exists_bound hheight
    rw [score_both, score_both,
      map_scoreWithin_again (PartAt.forall₂_faithful hparts hmore) hbound hmore]

/-- A conjunction of cursors that have not moved is a cursor that has not moved. -/
theorem faithful_both {roles : List Role} {parts : List Scorer}
    (hbelow : ∀ role ∈ roles, ∀ document, role.members document → document < noMore)
    (h : List.Forall₂ (fun role part => role.Faithful none part) roles parts) :
    (Role.both roles).Faithful none (both parts none) := by
  refine ⟨BothAt roles, invariant_bothAt roles hbelow, parts, rfl, ?_, fun _ hplace => ?_⟩
  · exact h.imp fun role part hpart => ⟨none, hpart, Or.inr rfl⟩
  · cases hplace

end Scorer
end Concordance
