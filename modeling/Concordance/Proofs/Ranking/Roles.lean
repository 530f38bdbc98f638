import Mathlib.Data.List.Forall2
import Concordance.Proofs.Ranking.Cursor

/-!
# The scorers of several roles

The parts of a conjunction or disjunction are a list of scorers, each of which is a cursor of its
own role. A list of roles and a list of scorers are related place by place.
-/

namespace Concordance

namespace Role

/-- The greatest height of some roles. -/
def heights : List Role → Nat
  | [] => 0
  | role :: roles => max role.height (heights roles)

/-- No role of a list is higher than the list. -/
theorem height_le_heights {role : Role} {roles : List Role} (h : role ∈ roles) :
    role.height ≤ heights roles := by
  induction roles with
  | nil => cases h
  | cons first rest ih =>
      rcases List.mem_cons.1 h with rfl | h
      · exact Nat.le_max_left _ _
      · exact Nat.le_trans (ih h) (Nat.le_max_right _ _)

/-- What a document is worth to each of some roles, in their order. -/
def WorthEach (document : DocumentId) (roles : List Role) (values : List Float32) : Prop :=
  List.Forall₂ (fun role value => role.worth document value) roles values

/-- A scorer is a cursor of a role at some place. -/
def Somewhere (role : Role) (scorer : Scorer) : Prop :=
  ∃ current, role.Faithful current scorer

/-- The scorer of a part has not passed any of some documents from a number on. -/
def Near (documents : DocumentId → Prop) (start : Nat) (role : Role) (scorer : Scorer) : Prop :=
  role.Faithful (some scorer.place) scorer ∧
    ∀ document, documents document → start ≤ document.toNat → scorer.place ≤ document

/-- Scorers are as high as their roles. -/
theorem heights_eq {roles : List Role} {scorers : List Scorer}
    (h : List.Forall₂ Somewhere roles scorers) : Scorer.heights scorers = heights roles := by
  induction h with
  | nil => rfl
  | cons hfirst hrest ih =>
      obtain ⟨current, hfaithful⟩ := hfirst
      rw [Scorer.heights, heights, ih, hfaithful.height]

/-- What bounds the height of a combination bounds that of its parts by one less. -/
theorem exists_bound {roles : List Role} {bound : Nat} (h : heights roles + 1 ≤ bound) :
    ∃ inner, bound = inner + 1 ∧ ∀ role ∈ roles, role.height ≤ inner := by
  refine ⟨bound - 1, by omega, fun role hrole => ?_⟩
  have hle := height_le_heights hrole
  omega

/-- The role of a scorer of a list. -/
theorem forall₂_getElem? {related : Role → Scorer → Prop} {roles : List Role}
    {scorers : List Scorer} (h : List.Forall₂ related roles scorers) {index : Nat}
    {scorer : Scorer} (hscorer : scorers[index]? = some scorer) :
    ∃ role, roles[index]? = some role ∧ role ∈ roles ∧ related role scorer := by
  induction h generalizing index with
  | nil => cases hscorer
  | @cons role first roles rest hfirst hrest ih =>
      cases index with
      | zero =>
          rw [List.getElem?_cons_zero, Option.some.injEq] at hscorer
          subst hscorer
          exact ⟨role, rfl, List.mem_cons_self, hfirst⟩
      | succ index =>
          obtain ⟨other, hother, hmem, hrelated⟩ := ih hscorer
          exact ⟨other, hother, List.mem_cons_of_mem role hmem, hrelated⟩

/-- The scorer with the role at an index. -/
theorem forall₂_getElem?_of_role {related : Role → Scorer → Prop} {roles : List Role}
    {scorers : List Scorer} (h : List.Forall₂ related roles scorers) {index : Nat} {role : Role}
    (hrole : roles[index]? = some role) :
    ∃ scorer, scorers[index]? = some scorer ∧ related role scorer := by
  obtain ⟨hindex, -⟩ := List.getElem?_eq_some_iff.1 hrole
  rw [h.length_eq] at hindex
  have hscorer := List.getElem?_eq_getElem hindex
  obtain ⟨other, hother, -, hrelated⟩ := forall₂_getElem? h hscorer
  rw [hrole, Option.some.injEq] at hother
  exact ⟨_, hscorer, hother ▸ hrelated⟩

/-- The scorer of a role of a list. -/
theorem forall₂_exists_mem {related : Role → Scorer → Prop} {roles : List Role}
    {scorers : List Scorer} (h : List.Forall₂ related roles scorers) {role : Role}
    (hrole : role ∈ roles) : ∃ scorer ∈ scorers, related role scorer := by
  obtain ⟨index, hindex, rfl⟩ := List.getElem_of_mem hrole
  obtain ⟨scorer, hscorer, hrelated⟩ :=
    forall₂_getElem?_of_role h (List.getElem?_eq_getElem hindex)
  exact ⟨scorer, List.mem_of_getElem? hscorer, hrelated⟩

/-- The role of a scorer among others. -/
theorem exists_role_of_mem {related : Role → Scorer → Prop} {roles : List Role}
    {scorers : List Scorer} (h : List.Forall₂ related roles scorers) {scorer : Scorer}
    (hscorer : scorer ∈ scorers) : ∃ role ∈ roles, related role scorer := by
  obtain ⟨index, hindex, rfl⟩ := List.getElem_of_mem hscorer
  obtain ⟨role, -, hrole, hrelated⟩ := forall₂_getElem? h (List.getElem?_eq_getElem hindex)
  exact ⟨role, hrole, hrelated⟩

/-- What is known of roles and scorers may use that they are in the lists. -/
theorem forall₂_imp_mem {related other : Role → Scorer → Prop} {roles : List Role}
    {scorers : List Scorer} (h : List.Forall₂ related roles scorers)
    (himp : ∀ role ∈ roles, ∀ scorer ∈ scorers, related role scorer → other role scorer) :
    List.Forall₂ other roles scorers := by
  induction h with
  | nil => exact List.Forall₂.nil
  | cons hfirst hrest ih =>
      refine List.Forall₂.cons (himp _ List.mem_cons_self _ List.mem_cons_self hfirst) (ih ?_)
      intro role hrole scorer hscorer hrelated
      exact himp role (List.mem_cons_of_mem _ hrole) scorer (List.mem_cons_of_mem _ hscorer)
        hrelated

/-- Part of a list replaced by another scorer of its role. -/
theorem forall₂_set {related : Role → Scorer → Prop} {roles : List Role} {scorers : List Scorer}
    (h : List.Forall₂ related roles scorers) {index : Nat} {role : Role} {scorer : Scorer}
    (hrole : roles[index]? = some role) (hscorer : related role scorer) :
    List.Forall₂ related roles (scorers.set index scorer) := by
  induction h generalizing index with
  | nil => exact List.Forall₂.nil
  | cons hfirst hrest ih =>
      cases index with
      | zero =>
          rw [List.getElem?_cons_zero, Option.some.injEq] at hrole
          subst hrole
          exact List.Forall₂.cons hscorer hrest
      | succ index => exact List.Forall₂.cons hfirst (ih hrole)

end Role

namespace Scorer

/-- Asking parts for their scores adds these up. -/
theorem sumScores_fst (score : Scorer → Float32 × Scorer) (sum : Float32) (parts : List Scorer) :
    (sumScores score sum parts).1 = (parts.map fun part => (score part).1).foldl (· + ·) sum := by
  induction parts generalizing sum with
  | nil => rfl
  | cons part rest ih => exact ih _

/-- Asking parts for their scores asks each of them. -/
theorem sumScores_snd (score : Scorer → Float32 × Scorer) (sum : Float32) (parts : List Scorer) :
    (sumScores score sum parts).2 = parts.map fun part => (score part).2 := by
  induction parts generalizing sum with
  | nil => rfl
  | cons part rest ih => exact congrArg _ (ih _)

/-- Parts at one document answer with what it is worth to their roles. -/
theorem worthEach_map_scoreWithin {roles : List Role} {parts : List Scorer} {bound : Nat}
    {place : DocumentId}
    (h : List.Forall₂ (fun role part => role.Faithful (some place) part) roles parts)
    (hbound : ∀ role ∈ roles, role.height ≤ bound) (hmore : place ≠ noMore) :
    Role.WorthEach place roles (parts.map fun part => (scoreWithin bound part).1) := by
  refine List.forall₂_map_right_iff.2 (Role.forall₂_imp_mem h fun role hrole part _ hpart => ?_)
  exact hpart.worth (hbound role hrole) hmore

/-- Parts at one document answer the same when they are asked again. -/
theorem map_scoreWithin_again {roles : List Role} {parts : List Scorer} {bound : Nat}
    {place : DocumentId}
    (h : List.Forall₂ (fun role part => role.Faithful (some place) part) roles parts)
    (hbound : ∀ role ∈ roles, role.height ≤ bound) (hmore : place ≠ noMore) :
    ((parts.map fun part => (scoreWithin bound part).2).map fun part =>
        (scoreWithin bound part).1) = parts.map fun part => (scoreWithin bound part).1 := by
  rw [List.map_map]
  refine List.map_congr_left fun part hpart => ?_
  obtain ⟨role, hrole, hfaithful⟩ := Role.exists_role_of_mem h hpart
  exact hfaithful.again (hbound role hrole) hmore

/-- A conjunction adds up the scores of all its parts. -/
theorem score_both {bound : Nat} (parts : List Scorer) (current : Option DocumentId) :
    scoreWithin (bound + 1) (both parts current) =
      ((parts.map fun part => (scoreWithin bound part).1).foldl (· + ·) (-0.0),
        both (parts.map fun part => (scoreWithin bound part).2) current) := by
  rw [← sumScores_fst, ← sumScores_snd _ (-0.0)]
  rfl

end Scorer
end Concordance
