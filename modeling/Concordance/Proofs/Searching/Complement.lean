import Concordance.Proofs.Indexing.Accounts
import Concordance.Proofs.Searching.Ranking
import Concordance.Proofs.Searching.Recall

/-!
# What complements range over

The complement of a set is taken among the documents below the number of documents, and the query
for all documents asks for these (`Searcher.rangesOver_statistics`). They are the documents that
were added if all of those lie below their number (`Admissible.below_iff_added`), but not otherwise
(`Indexer.complement_of_sparse`). Searches find nothing but documents that were added or lie below
the number of documents (`Indexer.complements_range`).
-/

namespace Concordance

variable {tokenizer : Tokenizer} {documents : List (DocumentId × String)}

/-! ## The documents of an index -/

/-- The documents that were added. -/
def Added (documents : List (DocumentId × String)) : Members :=
  fun document => document ∈ documents.map (·.1)

/-- The documents below the number of documents. -/
def Below (documents : List (DocumentId × String)) : Members :=
  fun document => document.toNat < documents.length

/-- All documents that were added lie below the number of documents. -/
def Dense (documents : List (DocumentId × String)) : Prop :=
  ∀ document ∈ documents, document.1.toNat < documents.length

/-- Documents below a limit have numbers below it. -/
theorem numbers_subset {limit : Nat} (h : ∀ document ∈ documents, document.1.toNat < limit) :
    (documents.map (·.1)).map UInt32.toNat ⊆ List.range limit := by
  intro number hnumber
  rw [List.map_map] at hnumber
  obtain ⟨document, hdocument, rfl⟩ := List.mem_map.1 hnumber
  exact List.mem_range.2 (h document hdocument)

namespace Admissible

variable (h : Admissible documents)

include h

/-- Documents that are added once have different numbers. -/
theorem nodup_numbers : ((documents.map (·.1)).map UInt32.toNat).Nodup :=
  h.distinct.map fun _ _ heq => UInt32.toNat_inj.1 heq

/-- There are not too many documents to be counted. -/
theorem length_lt : documents.length < 2 ^ 32 := by
  have hlength := h.nodup_numbers.length_le_of_subset (numbers_subset h.below)
  rw [List.length_map, List.length_map, List.length_range] at hlength
  omega

/-- If all documents that were added lie below their number, no other document does. -/
theorem below_iff_added (hdense : Dense documents) (document : DocumentId) :
    Below documents document ↔ Added documents document := by
  -- as many different numbers as there are below the limit are all of them
  have hperm :=
    (h.nodup_numbers.subperm (numbers_subset hdense)).perm_of_length_le (by simp)
  rw [Below, ← List.mem_range, ← hperm.mem_iff]
  constructor
  · intro hnumber
    obtain ⟨other, hother, hsame⟩ := List.mem_map.1 hnumber
    rwa [UInt32.toNat_inj.1 hsame] at hother
  · intro hadded
    exact List.mem_map_of_mem hadded

end Admissible

/-! ## Complements -/

namespace Searcher

variable {searcher : Searcher}

/-- Complements are taken among some documents, and the query for all documents asks for these. -/
structure RangesOver (searcher : Searcher) (range : Members) : Prop where
  negated : ∀ expression, ∃ set complement,
    Searching.value (searcher.evaluate expression) = .ok set ∧
    Searching.value (searcher.evaluate (.negated expression)) = .ok complement ∧
    ∀ document, document ∈ complement ↔ range document ∧ document ∉ set
  twice : ∀ expression, ∃ set same,
    Searching.value (searcher.evaluate expression) = .ok set ∧
    Searching.value (searcher.evaluate (.negated (.negated expression))) = .ok same ∧
    ∀ document, document ∈ same ↔ range document ∧ document ∈ set
  all : ∃ hits, Searching.value (searcher.hits .all) = .ok hits ∧
    Enumerates (hits.map Hit.document) range

/-- Which range a searcher complements depends on its documents only. -/
theorem RangesOver.congr {range same : Members} (h : searcher.RangesOver range)
    (hsame : ∀ document, range document ↔ same document) : searcher.RangesOver same := by
  obtain rfl : range = same := funext fun document => propext (hsame document)
  exact h

/-- The complement of the set of an expression. -/
theorem value_negated {expression : Expression} {set : DocumentSet}
    (h : Searching.value (searcher.evaluate expression) = .ok set) :
    Searching.value (searcher.evaluate (.negated expression)) =
      .ok ((DocumentSet.below searcher.statistics.documents).diff set) := by
  rw [evaluate]
  exact Searching.value_bind_of_ok h

/-- In every index, complements are taken among the documents below the number in its
statistics. -/
theorem rangesOver_statistics (searcher : Searcher) :
    searcher.RangesOver fun document => document < searcher.statistics.documents := by
  refine ⟨fun expression => ?_, fun expression => ?_, ?_⟩
  · obtain ⟨set, hset, -⟩ := searcher.exists_evaluate expression
    refine ⟨set, _, hset, value_negated hset, fun document => ?_⟩
    rw [DocumentSet.mem_diff, DocumentSet.mem_below]
  · obtain ⟨set, hset, -⟩ := searcher.exists_evaluate expression
    refine ⟨set, _, hset, value_negated (value_negated hset), fun document => ?_⟩
    rw [DocumentSet.mem_diff, DocumentSet.mem_diff, DocumentSet.mem_below]
    constructor
    · rintro ⟨hrange, hkept⟩
      exact ⟨hrange, Classical.not_not.1 fun hmem => hkept ⟨hrange, hmem⟩⟩
    · rintro ⟨hrange, hmem⟩
      exact ⟨hrange, fun hkept => hkept.2 hmem⟩
  · refine ⟨_, ?_, (Selection.WellFormed.all searcher.statistics.documents).enumerates_hits⟩
    rw [hits, selection, Searching.value_bind_of_ok (Searching.value_pure _)]
    exact Searching.value_pure _

/-! ## What is found -/

/-- Searches come to a result, with no documents but these. -/
structure FindsWithin (searcher : Searcher) (members : Members) : Prop where
  evaluated : ∀ expression, ∃ set, Searching.value (searcher.evaluate expression) = .ok set ∧
    ∀ document ∈ set, members document
  queried : ∀ query, ∃ hits, Searching.value (searcher.hits query) = .ok hits ∧
    ∀ hit ∈ hits, members hit.document
  unranked : ∀ text parsed, searcher.parser.parse text = .ok parsed →
    ∃ found, Searching.value (searcher.searchBoolean text) = .ok found ∧
      ∀ document ∈ found, members document
  ranked : ∀ text parsed, searcher.parser.parse text = .ok parsed → ∀ limit,
    ∃ hits, Searching.value (searcher.searchRanked text limit) = .ok hits ∧
      ∀ hit ∈ hits, members hit.document

/-- What clauses admit is in one of their sets. -/
theorem exists_set_of_admits {sets : List (Occurrence × Members)} {document : DocumentId}
    (h : Admits sets document) : ∃ set ∈ sets, set.2 document := by
  rcases h.wanted with ⟨set, hset, hkind⟩ | ⟨set, hset, -, hdocument⟩
  · exact ⟨set, hset, h.required set hset hkind⟩
  · exact ⟨set, hset, hdocument⟩

section Within

variable {members : Members} {document : DocumentId}

mutual

/-- If the places of phrases and the documents below the number of documents are all of some kind,
so is what a query asks for. -/
theorem within_of_denotes
    (hplaces : ∀ tokens words, Searching.value (searcher.phrasePostings tokens) = .ok (some words) →
      ∀ document ∈ words.documents, members document)
    (hbelow : ∀ document, document < searcher.statistics.documents → members document)
    (query : Query) (hdenotes : searcher.Denotes query document) : members document := by
  cases query with
  | term token =>
      rw [Denotes] at hdenotes
      obtain ⟨places, hvalue⟩ := searcher.exists_phrasePostings [token]
      obtain ⟨words, hwords, hdocument⟩ := (mem_phrasePostings_singleton hvalue).2 hdenotes
      obtain rfl := Option.mem_def.1 hwords
      exact hplaces _ _ hvalue document hdocument
  | phrase tokens =>
      rw [Denotes] at hdenotes
      obtain ⟨words, hvalue, hdocument⟩ := hdenotes
      exact hplaces _ _ hvalue document hdocument
  | clauses list =>
      rw [Denotes] at hdenotes
      obtain ⟨set, hset, hdocument⟩ := exists_set_of_admits hdenotes
      exact within_of_denotations hplaces hbelow list hset hdocument
  | all =>
      rw [Denotes] at hdenotes
      exact hbelow document hdenotes

/-- So is what one of some clauses asks for. -/
theorem within_of_denotations
    (hplaces : ∀ tokens words, Searching.value (searcher.phrasePostings tokens) = .ok (some words) →
      ∀ document ∈ words.documents, members document)
    (hbelow : ∀ document, document < searcher.statistics.documents → members document)
    (list : List (Occurrence × Query)) {set : Occurrence × Members}
    (hset : set ∈ searcher.denotations list) (hdocument : set.2 document) : members document := by
  cases list with
  | nil =>
      rw [denotations] at hset
      cases hset
  | cons clause rest =>
      obtain ⟨occurrence, query⟩ := clause
      rw [denotations] at hset
      rcases List.mem_cons.1 hset with rfl | hset
      · exact within_of_denotes hplaces hbelow query hdocument
      · exact within_of_denotations hplaces hbelow rest hset hdocument

end

/-- Searches find nothing but documents that were added or lie below the number of documents. -/
theorem Packs.findsWithin {common : CommonTokens}
    (h : searcher.Packs (Posted tokenizer common documents)) (hlawful : searcher.Lawful)
    (hadded : ∀ document, Added documents document → members document)
    (hbelow : ∀ document, document < searcher.statistics.documents → members document) :
    searcher.FindsWithin members := by
  have hwithin : ∀ query document, searcher.Denotes query document → members document := by
    intro query document hdenotes
    refine within_of_denotes (fun tokens words hwords document hdocument => ?_) hbelow query
      hdenotes
    obtain ⟨content, hmem⟩ := h.exists_added hlawful hwords hdocument
    exact hadded document (List.mem_map_of_mem hmem)
  have hevaluated : ∀ expression, ∃ set,
      Searching.value (searcher.evaluate expression) = .ok set ∧
        ∀ document ∈ set, members document := by
    intro expression
    obtain ⟨set, hset, hmem⟩ := searcher.exists_evaluate expression
    exact ⟨set, hset, fun document hdocument => hwithin _ document ((hmem document).1 hdocument)⟩
  have hqueried : ∀ query, ∃ hits, Searching.value (searcher.hits query) = .ok hits ∧
      ∀ hit ∈ hits, members hit.document := by
    intro query
    obtain ⟨hits, hhits, henumerates⟩ := exists_hits hlawful query
    exact ⟨hits, hhits, fun hit hhit =>
      hwithin query _ ((henumerates.mem_iff _).1 (List.mem_map_of_mem hhit))⟩
  refine ⟨hevaluated, hqueried, fun text parsed hparse => ?_, fun text parsed hparse limit => ?_⟩
  · rw [searchBoolean, Searching.value_liftM_bind_of_ok hparse]
    cases parsed with
    | none => exact ⟨[], rfl, fun document hdocument => absurd hdocument List.not_mem_nil⟩
    | some expression =>
        obtain ⟨set, hset, hmembers⟩ := hevaluated expression
        exact ⟨set.documents, Searching.value_bind_of_ok hset, hmembers⟩
  · rw [searchRanked, Searching.value_liftM_bind_of_ok hparse]
    cases parsed with
    | none => exact ⟨[], rfl, fun hit hhit => absurd hhit List.not_mem_nil⟩
    | some expression =>
        obtain ⟨hits, hhits, hmembers⟩ := hqueried expression.toQuery
        exact ⟨_, Searching.value_bind_of_ok hhits, fun hit hhit =>
          hmembers hit (TopDocuments.mem_of_mem_collectAll hhit)⟩

end Within

end Searcher

/-! ## Indexes -/

namespace Indexer

variable {path : String} {settings : IndexSettings} {disk : Disk} {workspace : Workspace}
  {searchPath : String} {searchSettings : SearchSettings} {searcher : Searcher}

/-- A searcher is told how many documents there are. -/
theorem statistics_of_build (hbuild : build path settings documents disk = .ok workspace)
    (hadmissible : Admissible documents)
    (hopen : Searcher.ofDisk workspace.disk searchPath searchSettings = .ok searcher) :
    searcher.statistics.documents.toNat = documents.length := by
  have hcounts := counts_of_build hbuild
  have hperm := (List.perm_ext_iff_of_nodup hcounts.nodup hadmissible.distinct).2 hcounts.mem_iff
  have hlength : workspace.indexer.known.length = documents.length := by
    rw [hperm.length_eq, List.length_map]
  have hlt := hadmissible.length_lt
  rw [Searcher.statistics_of_ofDisk hopen, (recorded_of_build hbuild).statistics,
    IndexStatistics.ofFile_text, hcounts.documents, hlength]
  exact Nat.mod_eq_of_lt hlt

/-- A document is below the number that the searcher knows if it is below the number of documents
that were added. -/
theorem lt_statistics_iff (hbuild : build path settings documents disk = .ok workspace)
    (hadmissible : Admissible documents)
    (hopen : Searcher.ofDisk workspace.disk searchPath searchSettings = .ok searcher)
    (document : DocumentId) :
    document < searcher.statistics.documents ↔ Below documents document := by
  rw [UInt32.lt_iff_toNat_lt, statistics_of_build hbuild hadmissible hopen]
  rfl

/-- **Complements range over the documents below the number of documents.** So does the query for
all documents, and searches find nothing else but documents that were added. If all documents that
were added lie below their number, complements range over exactly these. -/
theorem complements_range (hbuild : build path settings documents disk = .ok workspace)
    (hadmissible : Admissible documents) (searchPath : String) (searchSettings : SearchSettings) :
    (∀ searcher, Searcher.ofDisk workspace.disk searchPath searchSettings = .ok searcher →
      searcher.RangesOver (Below documents) ∧
        (Dense documents → searcher.RangesOver (Added documents))) ∧
    (Sized settings documents workspace →
      ∃ searcher, Searcher.ofDisk workspace.disk searchPath searchSettings = .ok searcher ∧
        searcher.FindsWithin (fun document =>
          Added documents document ∨ Below documents document) ∧
        (Dense documents → searcher.FindsWithin (Added documents))) := by
  constructor
  · intro searcher hopen
    have hranges := searcher.rangesOver_statistics.congr
      (lt_statistics_iff hbuild hadmissible hopen)
    exact ⟨hranges, fun hdense => hranges.congr (hadmissible.below_iff_added hdense)⟩
  · intro hsized
    obtain ⟨searcher, hopen, -, hpacks⟩ :=
      exists_searcher hbuild hsized searchPath searchSettings
    have hlawful := hpacks.lawful hadmissible.lt_noMore
    have hbelow := lt_statistics_iff hbuild hadmissible hopen
    refine ⟨searcher, hopen, ?_, fun hdense => ?_⟩
    · exact hpacks.findsWithin hlawful (fun document hadded => Or.inl hadded)
        fun document hlt => Or.inr ((hbelow document).1 hlt)
    · exact hpacks.findsWithin hlawful (fun document hadded => hadded) fun document hlt =>
        (hadmissible.below_iff_added hdense document).1 ((hbelow document).1 hlt)

/-- In an index of two documents, complements range over these. -/
theorem complements_range_two_documents : ∃ workspace searcher,
    build "index" (letterSettings 2) letterDocuments {} = .ok workspace ∧
      Searcher.ofDisk workspace.disk "index" { tokenizer := letters } = .ok searcher ∧
      searcher.RangesOver (Added letterDocuments) ∧
      searcher.FindsWithin (Added letterDocuments) := by
  obtain ⟨workspace, hbuild, hsized⟩ := exists_letterWorkspace 2 (by decide)
  obtain ⟨hranges, hfinds⟩ := complements_range hbuild ⟨by decide, by decide⟩ "index"
    { tokenizer := letters }
  have hdense : Dense letterDocuments := by
    unfold Dense
    decide
  obtain ⟨searcher, hopen, -, hwithin⟩ := hfinds hsized
  exact ⟨workspace, searcher, hbuild, hopen, (hranges searcher hopen).2 hdense, hwithin hdense⟩

set_option maxRecDepth 100000 in
/-- In an index of a single document that is not the first one, the complement of the empty set is
the first document, although it was not added. -/
theorem complement_of_sparse : ∃ workspace searcher set complement,
    build "index" (letterSettings 1) [(5, "a")] {} = .ok workspace ∧
      Searcher.ofDisk workspace.disk "index" { tokenizer := letters } = .ok searcher ∧
      Searching.value (searcher.evaluate (.term ["b"])) = .ok set ∧
      Searching.value (searcher.evaluate (.negated (.term ["b"]))) = .ok complement ∧
      ¬ ∀ document, document ∈ complement ↔ Added [(5, "a")] document ∧ document ∉ set := by
  have hrun : (build "index" (letterSettings 1) [(5, "a")] {}).toOption.any (fun workspace =>
      (Searcher.ofDisk workspace.disk "index" { tokenizer := letters }).toOption.any
        fun searcher => (Searching.value (searcher.evaluate (.negated (.term ["b"])))).toOption.any
          fun complement => decide (0 ∈ complement)) = true := by
    decide +kernel
  obtain ⟨workspace, hbuild, hrun⟩ := Success.exists_of_any hrun
  obtain ⟨searcher, hopen, hrun⟩ := Success.exists_of_any hrun
  obtain ⟨complement, hcomplement, hfirst⟩ := Success.exists_of_any hrun
  obtain ⟨set, hset, -⟩ := searcher.exists_evaluate (.term ["b"])
  refine ⟨workspace, searcher, set, complement, hbuild, hopen, hset, hcomplement, fun hexact => ?_⟩
  have hadded := ((hexact 0).1 (of_decide_eq_true hfirst)).1
  exact absurd hadded (by unfold Added; decide)

end Indexer
end Concordance
