import Concordance.Proofs.Ranking.Selection
import Concordance.Searching.Ranking

/-!
# Selections of clauses

Clauses admit the documents that all required ones have, or else some optional one, and that no
excluded one has. Clauses without documents are left out before their selections are combined,
which makes no difference (`Leaves.admits_iff`) unless they are required. The combination denotes
the documents that the clauses admit (`Selection.Compiles.realizes`).
-/

namespace Concordance

/-- A set of documents. -/
abbrev Members := DocumentId → Prop

/-! ## What clauses admit -/

/-- Clauses admit a document, given the documents of each of them: all required clauses have it, an
optional one has it unless something is required, and no excluded one has it. -/
structure Admits (sets : List (Occurrence × Members)) (document : DocumentId) : Prop where
  required : ∀ set ∈ sets, set.1 = .required → set.2 document
  wanted : (∃ set ∈ sets, set.1 = .required) ∨ ∃ set ∈ sets, set.1 = .optional ∧ set.2 document
  excluded : ¬ ∃ set ∈ sets, set.1 = .excluded ∧ set.2 document

/-- Only the required sets and those that have the document matter. -/
theorem Admits.of_mem_iff {sets rest : List (Occurrence × Members)} {document : DocumentId}
    (h : Admits sets document)
    (hmem : ∀ set : Occurrence × Members, set.1 = .required ∨ set.2 document →
      (set ∈ sets ↔ set ∈ rest)) : Admits rest document := by
  refine ⟨fun set hset hkind => h.required set ((hmem set (Or.inl hkind)).2 hset) hkind, ?_, ?_⟩
  · rcases h.wanted with ⟨set, hset, hkind⟩ | ⟨set, hset, hkind, hdocument⟩
    · exact Or.inl ⟨set, (hmem set (Or.inl hkind)).1 hset, hkind⟩
    · exact Or.inr ⟨set, (hmem set (Or.inr hdocument)).1 hset, hkind, hdocument⟩
  · rintro ⟨set, hset, hkind, hdocument⟩
    exact h.excluded ⟨set, (hmem set (Or.inr hdocument)).2 hset, hkind, hdocument⟩

section Pairs

variable {first second : Members} {document : DocumentId}

/-- Two required sets admit the documents of both. -/
theorem admits_both : Admits [(.required, first), (.required, second)] document ↔
    first document ∧ second document := by
  constructor
  · intro h
    exact ⟨h.required _ List.mem_cons_self rfl, h.required (.required, second) (by simp) rfl⟩
  · intro h
    refine ⟨fun set hset _ => ?_, Or.inl ⟨_, List.mem_cons_self, rfl⟩, by simp⟩
    simp only [List.mem_cons, List.not_mem_nil, or_false] at hset
    rcases hset with rfl | rfl
    · exact h.1
    · exact h.2

/-- Two optional sets admit the documents of either. -/
theorem admits_either : Admits [(.optional, first), (.optional, second)] document ↔
    first document ∨ second document := by
  constructor
  · intro h
    have hwanted := h.wanted
    simpa using hwanted
  · intro h
    exact ⟨by simp, by simpa using h, by simp⟩

/-- A required set and an excluded one admit the documents of the first that the second one lacks.
-/
theorem admits_except : Admits [(.required, first), (.excluded, second)] document ↔
    first document ∧ ¬ second document := by
  constructor
  · intro h
    have hexcluded := h.excluded
    exact ⟨h.required _ List.mem_cons_self rfl, by simpa using hexcluded⟩
  · intro h
    exact ⟨by simpa using h.1, by simp, by simpa using h.2⟩

end Pairs

/-! ## Clauses without documents -/

/-- The sets that are left when some that are empty and not required are left out. -/
inductive Leaves : List (Occurrence × Members) → List (Occurrence × Members) → Prop
  | nil : Leaves [] []
  | keep {sets rest : List (Occurrence × Members)} (set : Occurrence × Members)
      (h : Leaves sets rest) : Leaves (set :: sets) (set :: rest)
  | drop {sets rest : List (Occurrence × Members)} {set : Occurrence × Members}
      (hoptional : set.1 ≠ .required) (hempty : ∀ document, ¬ set.2 document)
      (h : Leaves sets rest) : Leaves (set :: sets) rest

namespace Leaves

variable {sets rest : List (Occurrence × Members)} {document : DocumentId}

/-- A set that is required or has the document was not left out. -/
theorem mem_iff (h : Leaves sets rest) {set : Occurrence × Members}
    (hset : set.1 = .required ∨ set.2 document) : set ∈ sets ↔ set ∈ rest := by
  induction h with
  | nil => exact Iff.rfl
  | keep other h ih => rw [List.mem_cons, List.mem_cons, ih]
  | drop hoptional hempty h ih =>
      rw [List.mem_cons, ih]
      refine or_iff_right ?_
      rintro rfl
      exact hset.elim hoptional (hempty document)

/-- Leaving out sets without documents makes no difference. -/
theorem admits_iff (h : Leaves sets rest) : Admits sets document ↔ Admits rest document :=
  ⟨fun hadmits => hadmits.of_mem_iff fun _ hset => h.mem_iff hset,
    fun hadmits => hadmits.of_mem_iff fun _ hset => (h.mem_iff hset).symm⟩

end Leaves

/-! ## Selections of clauses -/

namespace Selection

/-- The selection of what is required, or else of what is optional. -/
def wantedOf : (required optional : Option Selection) → Option Selection
  | some required, some optional => some (preferring required optional)
  | some required, none => some required
  | none, optional => optional

/-- A selection without what is excluded. -/
def excluding : (wanted excluded : Option Selection) → Option Selection
  | some wanted, some excluded => some (without wanted excluded)
  | wanted, none => wanted
  | none, some _ => none

/-- Clauses are put together from those that are required, those that are optional, and those that
are excluded. -/
theorem ofClauses_eq (parts : List (Occurrence × Selection)) :
    ofClauses parts =
      excluding (wantedOf (bothOf (ofKind .required parts)) (anyOf (ofKind .optional parts)))
        (anyOf (ofKind .excluded parts)) := by
  unfold ofClauses
  cases bothOf (ofKind .required parts) <;> cases anyOf (ofKind .optional parts) <;>
    cases anyOf (ofKind .excluded parts) <;> rfl

/-- A selection, if there is one, is well-formed and denotes a set of documents, and without one
the set is empty. -/
structure Realizes (found : Option Selection) (members : Members) : Prop where
  wellFormed : ∀ selection ∈ found, selection.WellFormed
  selects_iff : ∀ document,
    (∃ selection ∈ found, selection.Selects document) ↔ members document

section Realizing

variable {found required optional excluded : Option Selection} {selection : Selection}
  {members first second : Members}

/-- Without a selection the empty set is realized. -/
theorem realizes_none (h : ∀ document, ¬ members document) : Realizes none members := by
  refine ⟨fun selection hselection => ?_, fun document => ?_⟩
  · cases hselection
  · refine iff_of_false ?_ (h document)
    rintro ⟨selection, hselection, -⟩
    cases hselection

/-- A well-formed selection realizes the set of its documents. -/
theorem realizes_some (h : selection.WellFormed)
    (hmembers : ∀ document, selection.Selects document ↔ members document) :
    Realizes (some selection) members := by
  refine ⟨fun other hother => ?_, fun document => ?_⟩
  · cases hother
    exact h
  · rw [← hmembers]
    simp

/-- What is realized without a selection has no documents. -/
theorem Realizes.not_of_none (h : Realizes none members) (document : DocumentId) :
    ¬ members document := by
  intro hmember
  obtain ⟨selection, hselection, -⟩ := (h.selects_iff document).2 hmember
  cases hselection

/-- A selection that realizes a set is well-formed, and its documents are those of the set. -/
theorem Realizes.of_some (h : Realizes (some selection) members) :
    selection.WellFormed ∧ selection.Selects = members := by
  refine ⟨h.wellFormed selection rfl, funext fun document => propext ?_⟩
  rw [← h.selects_iff]
  simp

/-- Which set is realized depends on its documents only. -/
theorem Realizes.congr {same : Members} (h : Realizes found members)
    (hsame : ∀ document, members document ↔ same document) : Realizes found same :=
  ⟨h.wellFormed, fun document => (h.selects_iff document).trans (hsame document)⟩

/-- What is required decides, or else what is optional. -/
theorem Realizes.wantedOf (hrequired : Realizes required first)
    (hoptional : Realizes optional second) :
    Realizes (wantedOf required optional) fun document =>
      first document ∨ required = none ∧ second document := by
  cases required with
  | none =>
      refine hoptional.congr fun document => ?_
      rw [or_iff_right (hrequired.not_of_none document), and_iff_right rfl]
  | some required =>
      obtain ⟨hwellFormed, rfl⟩ := hrequired.of_some
      have hdecides : ∀ document, required.Selects document ↔ required.Selects document ∨
          some required = none ∧ second document := fun document =>
        (or_iff_left fun hnone => Option.some_ne_none _ hnone.1).symm
      cases optional with
      | none => exact realizes_some hwellFormed hdecides
      | some optional =>
          exact realizes_some (.preferring hwellFormed hoptional.of_some.1) hdecides

/-- What is excluded is taken away. -/
theorem Realizes.excluding (hfound : Realizes found first) (hexcluded : Realizes excluded second) :
    Realizes (excluding found excluded) fun document => first document ∧ ¬ second document := by
  cases found with
  | none =>
      have hnone : ∀ document, ¬ (first document ∧ ¬ second document) := fun document hmember =>
        hfound.not_of_none document hmember.1
      cases excluded with
      | none => exact realizes_none hnone
      | some excluded => exact realizes_none hnone
  | some wanted =>
      obtain ⟨hwanted, rfl⟩ := hfound.of_some
      cases excluded with
      | none =>
          exact realizes_some hwanted fun document =>
            (and_iff_left (hexcluded.not_of_none document)).symm
      | some excluded =>
          obtain ⟨hwellFormed, rfl⟩ := hexcluded.of_some
          exact realizes_some (.without hwanted hwellFormed) fun document => Iff.rfl

end Realizing

section Parts

variable {parts : List Selection}

/-- Without parts there is no conjunction. -/
theorem bothOf_eq_none_iff : bothOf parts = none ↔ parts = [] := by
  unfold bothOf
  split
  · exact iff_of_true rfl rfl
  · exact iff_of_false (Option.some_ne_none _) (List.cons_ne_nil _ _)
  · rename_i hnil hsingle
    exact iff_of_false (Option.some_ne_none _) hnil

/-- A conjunction has the documents of all its parts, of which there has to be one. -/
theorem realizes_bothOf (h : ∀ part ∈ parts, part.WellFormed) :
    Realizes (bothOf parts) fun document =>
      parts ≠ [] ∧ ∀ part ∈ parts, part.Selects document := by
  unfold bothOf
  split
  · exact realizes_none fun document hmember => hmember.1 rfl
  · rename_i part
    refine realizes_some (h part List.mem_cons_self) fun document => ?_
    simp
  · refine realizes_some (WellFormed.both h) fun document => ?_
    rw [Selects, selectsAll_iff]

/-- A disjunction has the documents of any of its parts. -/
theorem realizes_anyOf (h : ∀ part ∈ parts, part.WellFormed) :
    Realizes (anyOf parts) fun document => ∃ part ∈ parts, part.Selects document := by
  unfold anyOf
  split
  · refine realizes_none fun document hmember => ?_
    obtain ⟨part, hpart, -⟩ := hmember
    cases hpart
  · rename_i part
    refine realizes_some (h part List.mem_cons_self) fun document => ?_
    simp
  · refine realizes_some (WellFormed.any h) fun document => ?_
    rw [Selects, selectsAny_iff]

end Parts

section Clauses

variable {parts : List (Occurrence × Selection)} {kind : Occurrence}

/-- The parts of a kind are those that clauses name with it. -/
theorem mem_ofKind {part : Selection} : part ∈ ofKind kind parts ↔ (kind, part) ∈ parts := by
  rw [ofKind, List.mem_map]
  constructor
  · rintro ⟨⟨occurrence, other⟩, hother, rfl⟩
    obtain ⟨hmem, hkind⟩ := List.mem_filter.1 hother
    rwa [← of_decide_eq_true hkind]
  · intro hmem
    exact ⟨(kind, part), List.mem_filter.2 ⟨hmem, decide_eq_true rfl⟩, rfl⟩

/-- The sets of documents of some parts. -/
def setsOf (parts : List (Occurrence × Selection)) : List (Occurrence × Members) :=
  parts.map fun part => (part.1, part.2.Selects)

/-- The set of a part stands among the sets with its kind. -/
theorem mem_setsOf {part : Selection} (h : part ∈ ofKind kind parts) :
    (kind, part.Selects) ∈ setsOf parts :=
  List.mem_map.2 ⟨_, mem_ofKind.1 h, rfl⟩

/-- Every set is that of a part of its kind. -/
theorem exists_of_mem_setsOf {set : Occurrence × Members} (h : set ∈ setsOf parts) :
    ∃ part ∈ ofKind set.1 parts, part.Selects = set.2 := by
  obtain ⟨⟨occurrence, part⟩, hpart, rfl⟩ := List.mem_map.1 h
  exact ⟨part, mem_ofKind.2 hpart, rfl⟩

/-- A document is in a set of some kind if it is selected by a part of this kind. -/
theorem exists_setsOf_iff {document : DocumentId} :
    (∃ set ∈ setsOf parts, set.1 = kind ∧ set.2 document) ↔
      ∃ part ∈ ofKind kind parts, part.Selects document := by
  constructor
  · rintro ⟨set, hset, rfl, hdocument⟩
    obtain ⟨part, hpart, hselects⟩ := exists_of_mem_setsOf hset
    exact ⟨part, hpart, hselects ▸ hdocument⟩
  · rintro ⟨part, hpart, hdocument⟩
    exact ⟨_, mem_setsOf hpart, rfl, hdocument⟩

/-- What the parts of clauses admit, told by the parts of each kind. -/
theorem admits_setsOf_iff {document : DocumentId} :
    Admits (setsOf parts) document ↔
      (∀ part ∈ ofKind .required parts, part.Selects document) ∧
        (ofKind .required parts ≠ [] ∨ ∃ part ∈ ofKind .optional parts, part.Selects document) ∧
        ¬ ∃ part ∈ ofKind .excluded parts, part.Selects document := by
  have hrequired : (∃ set ∈ setsOf parts, set.1 = .required) ↔ ofKind .required parts ≠ [] := by
    constructor
    · rintro ⟨set, hset, hkind⟩
      obtain ⟨part, hpart, -⟩ := exists_of_mem_setsOf hset
      exact List.ne_nil_of_mem (hkind ▸ hpart)
    · intro hne
      obtain ⟨part, hpart⟩ := List.exists_mem_of_ne_nil _ hne
      exact ⟨_, mem_setsOf hpart, rfl⟩
  rw [← hrequired, ← exists_setsOf_iff, ← exists_setsOf_iff]
  constructor
  · rintro ⟨hall, hwanted, hexcluded⟩
    exact ⟨fun part hpart => hall _ (mem_setsOf hpart) rfl, hwanted, hexcluded⟩
  · rintro ⟨hall, hwanted, hexcluded⟩
    refine ⟨fun set hset hkind => ?_, hwanted, hexcluded⟩
    obtain ⟨part, hpart, hselects⟩ := exists_of_mem_setsOf hset
    exact hselects ▸ hall part (hkind ▸ hpart)

/-- The selection of clauses denotes the documents that they admit. -/
theorem realizes_ofClauses (h : ∀ part ∈ parts, part.2.WellFormed) :
    Realizes (ofClauses parts) (Admits (setsOf parts)) := by
  have hkind : ∀ kind, ∀ part ∈ ofKind kind parts, part.WellFormed := fun kind part hpart =>
    h _ (mem_ofKind.1 hpart)
  have hany := fun kind => realizes_anyOf (hkind kind)
  rw [ofClauses_eq]
  refine (((realizes_bothOf (hkind .required)).wantedOf (hany .optional)).excluding
    (hany .excluded)).congr fun document => ?_
  rw [bothOf_eq_none_iff, admits_setsOf_iff]
  -- with nothing required the first two conditions are left to the optional parts
  by_cases hnone : ofKind .required parts = []
  · simp [hnone]
  · simp [hnone]

end Clauses

/-- Clauses are turned into parts that realize their sets, where those without documents may be
missing. There are no parts only if a required clause has no documents. -/
structure Compiles (sets : List (Occurrence × Members))
    (found : Option (List (Occurrence × Selection))) : Prop where
  wellFormed : ∀ parts ∈ found, ∀ part ∈ parts, part.2.WellFormed
  leaves : ∀ parts ∈ found, Leaves sets (setsOf parts)
  missing : found = none → ∃ set ∈ sets, set.1 = .required ∧ ∀ document, ¬ set.2 document

section Compiling

variable {sets : List (Occurrence × Members)} {found : Option (List (Occurrence × Selection))}
  {occurrence : Occurrence} {members : Members}

/-- No clauses are turned into no parts. -/
theorem compiles_nil : Compiles [] (some []) := by
  refine ⟨fun parts hparts => ?_, fun parts hparts => ?_, fun hnone => ?_⟩
  · cases hparts
    exact fun part hpart => absurd hpart List.not_mem_nil
  · cases hparts
    exact Leaves.nil
  · cases hnone

/-- A required set without documents is still missing when there is one clause more. -/
theorem Compiles.missing_cons (h : Compiles sets found) (set : Occurrence × Members)
    (hnone : found = none) :
    ∃ other ∈ set :: sets, other.1 = .required ∧ ∀ document, ¬ other.2 document := by
  obtain ⟨other, hother, hempty⟩ := h.missing hnone
  exact ⟨other, List.mem_cons_of_mem set hother, hempty⟩

/-- A clause with a selection becomes a part. -/
theorem Compiles.keep (h : Compiles sets found) {part : Selection} (hpart : part.WellFormed) :
    Compiles ((occurrence, part.Selects) :: sets) (found.map ((occurrence, part) :: ·)) := by
  refine ⟨fun parts hparts => ?_, fun parts hparts => ?_, fun hnone => ?_⟩
  · obtain ⟨others, hothers, rfl⟩ := Option.map_eq_some_iff.1 hparts
    exact List.forall_mem_cons.2 ⟨hpart, h.wellFormed others hothers⟩
  · obtain ⟨others, hothers, rfl⟩ := Option.map_eq_some_iff.1 hparts
    exact Leaves.keep (occurrence, part.Selects) (h.leaves others hothers)
  · exact h.missing_cons _ (Option.map_eq_none_iff.1 hnone)

/-- A clause without documents is left out if it is not required. -/
theorem Compiles.drop (h : Compiles sets found) (hkind : occurrence ≠ .required)
    (hempty : ∀ document, ¬ members document) : Compiles ((occurrence, members) :: sets) found :=
  ⟨h.wellFormed, fun parts hparts => Leaves.drop hkind hempty (h.leaves parts hparts),
    h.missing_cons _⟩

/-- Without documents for a required clause there are no parts. -/
theorem compiles_none (hkind : occurrence = .required) (hempty : ∀ document, ¬ members document) :
    Compiles ((occurrence, members) :: sets) none := by
  refine ⟨fun parts hparts => ?_, fun parts hparts => ?_, fun _ => ?_⟩
  · cases hparts
  · cases hparts
  · exact ⟨_, List.mem_cons_self, hkind, hempty⟩

/-- The selection of the parts denotes the documents that the clauses admit. -/
theorem Compiles.realizes (h : Compiles sets found) :
    Realizes (found.bind ofClauses) (Admits sets) := by
  cases found with
  | none =>
      refine realizes_none fun document hadmits => ?_
      obtain ⟨set, hset, hkind, hempty⟩ := h.missing rfl
      exact hempty document (hadmits.required set hset hkind)
  | some parts =>
      exact (realizes_ofClauses (h.wellFormed parts rfl)).congr fun document =>
        (h.leaves parts rfl).admits_iff.symm

end Compiling
end Selection
end Concordance
