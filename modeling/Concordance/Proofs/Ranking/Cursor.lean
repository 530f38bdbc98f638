import Concordance.Ranking.Score
import Mathlib.Algebra.GroupWithZero.Nat

/-!
# Faithful cursors

A scorer is a faithful cursor over a set of documents if every move takes it to the first document
of the set from some place on, and asking for its score leaves it where it is and answers with the
score of the document it stands at. `Faithful` states this for all sequences of calls at once: there
is an invariant that every call preserves. The
modules on the kinds of scorers give the invariants; a combination only relies on its parts being
faithful.
-/

namespace Concordance

/-- The place behind all documents is the largest number of 32 bits. -/
theorem toNat_noMore : noMore.toNat = 2 ^ 32 - 1 := rfl

/-- No number of a document is larger than the place behind all documents. -/
theorem toNat_le_noMore (document : DocumentId) : document.toNat ≤ noMore.toNat := by
  have hlt := UInt32.toNat_lt document
  rw [toNat_noMore]
  omega

/-- Nothing lies behind the place behind all documents. -/
theorem noMore_not_lt (document : DocumentId) : ¬ noMore < document :=
  UInt32.not_lt.2 (UInt32.le_iff_toNat_le.2 (toNat_le_noMore document))

/-- A document is the first of a set from a number on, or `noMore` if there is none. -/
def IsFirst (members : DocumentId → Prop) (start : Nat) (document : DocumentId) : Prop :=
  (document = noMore ∨ members document ∧ start ≤ document.toNat) ∧
    ∀ other, members other → start ≤ other.toNat → document ≤ other

namespace IsFirst

variable {members : DocumentId → Prop} {start : Nat} {document : DocumentId}

/-- A first document is not behind any other one from where the search starts. -/
theorem le (h : IsFirst members start document) {other : DocumentId} (hother : members other)
    (hstart : start ≤ other.toNat) : document ≤ other :=
  h.2 other hother hstart

/-- A first document from a number on is the first one from every number up to it. -/
theorem raise (h : IsFirst members start document) {later : Nat} (hle : start ≤ later)
    (hlater : later ≤ document.toNat) : IsFirst members later document := by
  refine ⟨h.1.imp_right fun hmem => ⟨hmem.1, hlater⟩, fun other hother hstart => ?_⟩
  exact h.le hother (Nat.le_trans hle hstart)

/-- A first document does not lie before where the search starts. -/
theorem le_toNat (h : IsFirst members start document) (hstart : start ≤ noMore.toNat) :
    start ≤ document.toNat := by
  rcases h.1 with rfl | hmem
  · exact hstart
  · exact hmem.2

/-- The first document from a document on is that document exactly if it is in the set. -/
theorem eq_iff {target : DocumentId} (h : IsFirst members target.toNat document)
    (hmore : target ≠ noMore) : document = target ↔ members target := by
  constructor
  · rintro rfl
    exact (h.1.resolve_left hmore).1
  · intro hmember
    refine UInt32.le_antisymm (h.le hmember (Nat.le_refl _)) ?_
    exact UInt32.le_iff_toNat_le.2 (h.le_toNat (toNat_le_noMore target))

/-- There is only one first document. -/
theorem unique (h : IsFirst members start document) {other : DocumentId}
    (hother : IsFirst members start other) : document = other := by
  have hle : ∀ {a b : DocumentId}, IsFirst members start a → IsFirst members start b → a ≤ b := by
    intro a b ha hb
    rcases hb.1 with rfl | hmem
    · exact UInt32.le_iff_toNat_le.2 (toNat_le_noMore a)
    · exact ha.le hmem.1 hmem.2
  exact UInt32.le_antisymm (hle h hother) (hle hother h)

end IsFirst

namespace Scorer

/-! ## The moves of each kind of scorer -/

variable {bound : Nat} {target : DocumentId}

/-- From a document at or behind the target a scorer does not move. -/
theorem moveWithin_of_not_before {scorer : Scorer}
    (h : ¬ isBefore scorer.document target = true) :
    scorer.moveWithin bound (.advance target) = scorer := by
  rw [moveWithin.eq_def]
  exact if_neg h

/-- A scorer that is not before a target stays where it is, whether that is asked in advance or not.
-/
theorem ite_moveWithin (part : Scorer) (target : DocumentId) :
    (if isBefore part.document target then moveWithin bound (.advance target) part else part) =
      moveWithin bound (.advance target) part := by
  split
  · rfl
  · rename_i hbefore
    exact (moveWithin_of_not_before hbefore).symm

/-- The next match of a term is found in its list. -/
theorem next_term (scorer : TermScorer) :
    moveWithin bound .next (term scorer) = term scorer.next := by
  cases bound <;> rfl

/-- The next match of all documents is the next number. -/
theorem next_all (limit : DocumentId) (current : Option DocumentId) :
    moveWithin bound .next (all limit current) = all limit (some (nextBelow limit current)) := by
  cases bound <;> rfl

/-- The next match of a conjunction is found by moving its parts. -/
theorem next_both (parts : List Scorer) (current : Option DocumentId) :
    moveWithin (bound + 1) .next (both parts current) =
      nextBoth (moveWithin bound .next) (fun target => moveWithin bound (.advance target)) parts
        current := rfl

/-- The next match of a disjunction is found by moving the parts whose turn it is. -/
theorem next_any (parts : List Scorer) (queue : TurnQueue) (current : Option DocumentId) :
    moveWithin (bound + 1) .next (any parts queue current) =
      nextAny (moveWithin bound .next) parts queue current := rfl

/-- The next match of an exclusion is found by moving the required part, and skipping what is
excluded. -/
theorem next_without (required excluded : Scorer) (current : Option DocumentId) :
    moveWithin (bound + 1) .next (without required excluded current) =
      skipExcluded (moveWithin bound .next) (fun target => moveWithin bound (.advance target))
        (moveWithin bound .next required) excluded := rfl

/-- The next match of a preference is that of its required part. -/
theorem next_preferring (required optional : Scorer) :
    moveWithin (bound + 1) .next (preferring required optional) =
      preferring (moveWithin bound .next required) optional := rfl

/-- A term that is before a target seeks it in its list. -/
theorem advance_term {scorer : TermScorer} (h : isBefore scorer.current target = true) :
    moveWithin bound (.advance target) (term scorer) = term (scorer.seek target) := by
  cases bound <;> exact if_pos h

/-- All documents are advanced to the target, unless it is not below their limit. -/
theorem advance_all {limit : DocumentId} {current : Option DocumentId}
    (h : isBefore current target = true) :
    moveWithin bound (.advance target) (all limit current) =
      all limit (some (if limit ≤ target then noMore else target)) := by
  cases bound <;> exact if_pos h

/-- A conjunction is advanced by advancing its parts. -/
theorem advance_both {parts : List Scorer} {current : Option DocumentId}
    (h : isBefore current target = true) :
    moveWithin (bound + 1) (.advance target) (both parts current) =
      advanceBoth (fun target => moveWithin bound (.advance target)) target parts :=
  if_pos h

/-- A disjunction is advanced by advancing the parts that are before the target. -/
theorem advance_any {parts : List Scorer} {queue : TurnQueue} {current : Option DocumentId}
    (h : isBefore current target = true) :
    moveWithin (bound + 1) (.advance target) (any parts queue current) =
      advanceAny (fun target => moveWithin bound (.advance target)) target parts queue :=
  if_pos h

/-- An exclusion is advanced by advancing the required part, and skipping what is excluded. -/
theorem advance_without {required excluded : Scorer} {current : Option DocumentId}
    (h : isBefore current target = true) :
    moveWithin (bound + 1) (.advance target) (without required excluded current) =
      skipExcluded (moveWithin bound .next) (fun target => moveWithin bound (.advance target))
        (moveWithin bound (.advance target) required) excluded :=
  if_pos h

/-- A preference is advanced by advancing the required part. -/
theorem advance_preferring {required optional : Scorer}
    (h : isBefore required.document target = true) :
    moveWithin (bound + 1) (.advance target) (preferring required optional) =
      preferring (moveWithin bound (.advance target) required) optional :=
  if_pos h

end Scorer

/-! ## Cursors -/

/-- The first number behind a place. -/
def after : Option DocumentId → Nat
  | none => 0
  | some document => document.toNat + 1

/-- Behind a document there is room up to the place behind all documents. -/
theorem after_le_noMore {document : DocumentId} (h : document ≠ noMore) :
    after (some document) ≤ noMore.toNat := by
  have hle := toNat_le_noMore document
  have hne := mt UInt32.toNat_inj.1 h
  rw [after]
  omega

/-- The number of a place. -/
def floor : Option DocumentId → Nat
  | none => 0
  | some document => document.toNat

/-- The first document behind a place is not before it. -/
theorem IsFirst.floor_le {members : DocumentId → Prop} {current : Option DocumentId}
    {place : DocumentId} (h : IsFirst members (after current) place) :
    floor current ≤ place.toNat := by
  cases current with
  | none => exact Nat.zero_le _
  | some document =>
      rcases h.1 with rfl | hmem
      · exact toNat_le_noMore document
      · exact Nat.le_of_succ_le hmem.2

/-- A target that a scorer is before is not before the place of the scorer. -/
theorem floor_le_of_isBefore {current : Option DocumentId} {target : DocumentId}
    (h : Scorer.isBefore current target = true) : floor current ≤ target.toNat := by
  cases current with
  | none => exact Nat.zero_le _
  | some document =>
      exact Nat.le_of_lt (UInt32.lt_iff_toNat_lt.1 (of_decide_eq_true h))

/-- What a scorer over a set of documents is: how deeply it is nested, the set, and the scores of
its documents. A document may have several scores, as the order is left open in which the scores of
parts are added. -/
structure Role where
  height : Nat
  members : DocumentId → Prop
  worth : DocumentId → Float32 → Prop

namespace Role

/-- An invariant of scorers and their places that makes them cursors over the documents of a
role. -/
structure Invariant (role : Role) (holds : Option DocumentId → Scorer → Prop) : Prop where
  below : ∀ document, role.members document → document < noMore
  height : ∀ {current scorer}, holds current scorer → scorer.height = role.height
  document : ∀ {current scorer}, holds current scorer → scorer.document = current
  valid : ∀ {place scorer}, holds (some place) scorer → place = noMore ∨ role.members place
  next : ∀ {current scorer bound}, holds current scorer → role.height ≤ bound →
    ∃ place, IsFirst role.members (after current) place ∧
      holds (some place) (scorer.moveWithin bound .next)
  advance : ∀ {current scorer bound target}, holds current scorer → role.height ≤ bound →
    Scorer.isBefore current target = true →
    ∃ place, IsFirst role.members target.toNat place ∧
      holds (some place) (scorer.moveWithin bound (.advance target))
  score : ∀ {current scorer bound}, holds current scorer → role.height ≤ bound →
    holds current (scorer.scoreWithin bound).2
  worth : ∀ {place scorer bound}, holds (some place) scorer → role.height ≤ bound →
    place ≠ noMore → role.worth place (scorer.scoreWithin bound).1
  again : ∀ {place scorer bound}, holds (some place) scorer → role.height ≤ bound →
    place ≠ noMore →
      ((scorer.scoreWithin bound).2.scoreWithin bound).1 = (scorer.scoreWithin bound).1

/-- A scorer stands at a place and answers all later calls as a cursor over the documents of a
role. -/
def Faithful (role : Role) (current : Option DocumentId) (scorer : Scorer) : Prop :=
  ∃ holds, role.Invariant holds ∧ holds current scorer

namespace Faithful

variable {role : Role} {current : Option DocumentId} {scorer : Scorer} {place target : DocumentId}
  {bound : Nat}

/-- The documents of a faithful scorer are below the place behind all documents. -/
theorem below (h : role.Faithful current scorer) :
    ∀ document, role.members document → document < noMore := by
  obtain ⟨holds, hinv, -⟩ := h
  exact hinv.below

/-- A faithful scorer is nested as deeply as its role says. -/
theorem height (h : role.Faithful current scorer) : scorer.height = role.height := by
  obtain ⟨holds, hinv, hholds⟩ := h
  exact hinv.height hholds

/-- A faithful scorer tells its place. -/
theorem document (h : role.Faithful current scorer) : scorer.document = current := by
  obtain ⟨holds, hinv, hholds⟩ := h
  exact hinv.document hholds

/-- At a document or behind all of them, the place is the one that is told. -/
theorem place_eq (h : role.Faithful (some place) scorer) : scorer.place = place := by
  rw [Scorer.place, h.document]
  rfl

/-- A faithful scorer stands at a document of its role, or behind all of them. -/
theorem valid (h : role.Faithful (some place) scorer) : place = noMore ∨ role.members place := by
  obtain ⟨holds, hinv, hholds⟩ := h
  exact hinv.valid hholds

/-- Asking for the score leaves a scorer faithful at its place. -/
theorem score (h : role.Faithful current scorer) (hbound : role.height ≤ bound) :
    role.Faithful current (scorer.scoreWithin bound).2 := by
  obtain ⟨holds, hinv, hholds⟩ := h
  exact ⟨holds, hinv, hinv.score hholds hbound⟩

/-- At a document, the score is one of the document. -/
theorem worth (h : role.Faithful (some place) scorer) (hbound : role.height ≤ bound)
    (hmore : place ≠ noMore) : role.worth place (scorer.scoreWithin bound).1 := by
  obtain ⟨holds, hinv, hholds⟩ := h
  exact hinv.worth hholds hbound hmore

/-- Asked again at a document, a scorer answers with the same score. -/
theorem again (h : role.Faithful (some place) scorer) (hbound : role.height ≤ bound)
    (hmore : place ≠ noMore) :
    ((scorer.scoreWithin bound).2.scoreWithin bound).1 = (scorer.scoreWithin bound).1 := by
  obtain ⟨holds, hinv, hholds⟩ := h
  exact hinv.again hholds hbound hmore

/-- The next match is the first document behind the current one. -/
theorem next (h : role.Faithful current scorer) (hbound : role.height ≤ bound) :
    ∃ place, IsFirst role.members (after current) place ∧
      role.Faithful (some place) (scorer.moveWithin bound .next) := by
  obtain ⟨holds, hinv, hholds⟩ := h
  obtain ⟨place, hfirst, hmoved⟩ := hinv.next hholds hbound
  exact ⟨place, hfirst, holds, hinv, hmoved⟩

/-- Advancing a scorer that is before the target finds the first document from the target on. -/
theorem advance (h : role.Faithful current scorer) (hbound : role.height ≤ bound)
    (hbefore : Scorer.isBefore current target = true) :
    ∃ place, IsFirst role.members target.toNat place ∧
      role.Faithful (some place) (scorer.moveWithin bound (.advance target)) := by
  obtain ⟨holds, hinv, hholds⟩ := h
  obtain ⟨place, hfirst, hmoved⟩ := hinv.advance hholds hbound hbefore
  exact ⟨place, hfirst, holds, hinv, hmoved⟩

/-- From its own place or an earlier target on, a scorer stays. -/
theorem advance_of_not_before (h : role.Faithful current scorer)
    (hbefore : ¬ Scorer.isBefore current target = true) :
    role.Faithful current (scorer.moveWithin bound (.advance target)) := by
  rwa [Scorer.moveWithin_of_not_before (by rwa [h.document])]

/-- A scorer that has not passed over documents from `target` on moves to the first of them. -/
theorem reach (h : role.Faithful current scorer) (hbound : role.height ≤ bound)
    (hnear : ∀ place, current = some place → ∀ document, role.members document →
      target ≤ document → place ≤ document) :
    ∃ place, IsFirst role.members target.toNat place ∧
      role.Faithful (some place) (scorer.moveWithin bound (.advance target)) := by
  by_cases hbefore : Scorer.isBefore current target = true
  · exact h.advance hbound hbefore
  · cases current with
    | none => exact absurd rfl hbefore
    | some place =>
        -- the scorer stands at the target or behind it, and stays there
        have hle : target ≤ place := UInt32.not_lt.1 fun hlt => hbefore (decide_eq_true hlt)
        refine ⟨place, ⟨h.valid.imp_right fun hmem => ⟨hmem, UInt32.le_iff_toNat_le.1 hle⟩, ?_⟩,
          h.advance_of_not_before hbefore⟩
        intro other hother hstart
        exact hnear place rfl other hother (UInt32.le_iff_toNat_le.2 hstart)

end Faithful
end Role
end Concordance
