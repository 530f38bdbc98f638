import Concordance.Proofs.Ranking.Drain
import Concordance.Proofs.Ranking.TopDocuments
import Concordance.Proofs.Searching.Clauses
import Concordance.Proofs.Searching.Places
import Concordance.Searching.Evaluation

/-!
# Ranked and unranked search agree

`Searcher.Denotes` says which documents a query asks for. The selection of a query denotes them
(`Searcher.exists_selection`), although parts that match nothing are left out on the way, and so
does the set of an expression (`Searcher.exists_evaluate`). Hence both ways to search find the same
documents in every index (`Indexer.searches_agree`).
-/

namespace Concordance

/-! ## What queries ask for -/

namespace Searcher

mutual

/-- A query asks for a document: a token or phrase for those of its list, and clauses for those
that they admit. -/
def Denotes (searcher : Searcher) : Query → Members
  | .term token => fun document =>
      ∃ words ∈ searcher.postings token, document ∈ words.documents
  | .phrase tokens => fun document =>
      ∃ words, Searching.value (searcher.phrasePostings tokens) = .ok (some words) ∧
        document ∈ words.documents
  | .clauses list => Admits (denotations searcher list)
  | .all => fun document => document < searcher.statistics.documents

/-- What each of some clauses asks for. -/
def denotations (searcher : Searcher) : List (Occurrence × Query) → List (Occurrence × Members)
  | [] => []
  | (occurrence, query) :: rest => (occurrence, Denotes searcher query) :: denotations searcher rest

end

end Searcher

/-! ## Selections of queries -/

namespace Searcher

variable {searcher : Searcher}

/-- The selection of a list that can be indexed has the documents of the list. -/
theorem realizes_weigh {words : Postings} (h : words.Indexable) :
    Selection.Realizes (searcher.weigh words) fun document => document ∈ words.documents := by
  unfold weigh
  simp only [Postings.documentCount_eq_length]
  split
  · rename_i hnone
    rw [List.length_eq_zero_iff.1 hnone]
    exact Selection.realizes_none fun document => List.not_mem_nil
  · refine Selection.realizes_some ?_ fun document => h.hasDocument_iff
    exact Selection.WellFormed.term h.byDocument (fun word hword => h.document_lt_noMore hword)
      h.canonical.ascending.countsFit

/-- The selection of a list that may be missing has the documents of the list, or none. -/
theorem realizes_bind_weigh {found : Option Postings} (h : ∀ words ∈ found, words.Indexable) :
    Selection.Realizes (found.bind searcher.weigh) fun document =>
      ∃ words ∈ found, document ∈ words.documents := by
  cases found with
  | none =>
      refine Selection.realizes_none fun document hmember => ?_
      obtain ⟨words, hwords, -⟩ := hmember
      cases hwords
  | some words =>
      refine (realizes_weigh (h words rfl)).congr fun document => ?_
      simp

mutual

/-- The selection of a query denotes the documents that the query asks for. -/
theorem exists_selection (h : searcher.Lawful) (query : Query) :
    ∃ found, Searching.value (searcher.selection query) = .ok found ∧
      Selection.Realizes found (searcher.Denotes query) := by
  cases query with
  | term token =>
      rw [selection, Denotes]
      exact ⟨_, Searching.value_pure _, realizes_bind_weigh (h token)⟩
  | phrase tokens =>
      rw [selection, Denotes]
      obtain ⟨places, hplaces, hindexable⟩ := h.phrasePostings tokens
      rw [Searching.value_bind_of_ok hplaces]
      refine ⟨_, Searching.value_pure _, (realizes_bind_weigh hindexable).congr fun document => ?_⟩
      simp [hplaces]
  | clauses list =>
      rw [selection, Denotes]
      obtain ⟨found, hfound, hcompiles⟩ := exists_clauseSelections h list
      rw [Searching.value_bind_of_ok hfound]
      exact ⟨_, Searching.value_pure _, hcompiles.realizes⟩
  | all =>
      rw [selection, Denotes]
      exact ⟨_, Searching.value_pure _,
        Selection.realizes_some (Selection.WellFormed.all _) fun document => Iff.rfl⟩

/-- The clauses of a query are turned into parts that realize them. -/
theorem exists_clauseSelections (h : searcher.Lawful) (list : List (Occurrence × Query)) :
    ∃ found, Searching.value (clauseSelections searcher list) = .ok found ∧
      Selection.Compiles (denotations searcher list) found := by
  cases list with
  | nil =>
      rw [clauseSelections]
      exact ⟨some [], Searching.value_pure _, Selection.compiles_nil⟩
  | cons clause rest =>
      obtain ⟨occurrence, query⟩ := clause
      obtain ⟨found, hfound, hrealizes⟩ := exists_selection h query
      obtain ⟨later, hlater, hcompiles⟩ := exists_clauseSelections h rest
      rw [clauseSelections, denotations, Searching.value_bind_of_ok hfound]
      cases found with
      | some part =>
          obtain ⟨hpart, hselects⟩ := hrealizes.of_some
          exact ⟨_, Searching.value_bind_of_ok hlater, hselects ▸ hcompiles.keep hpart⟩
      | none =>
          have hempty := hrealizes.not_of_none
          by_cases hkind : occurrence = .required
          · refine ⟨none, ?_, Selection.compiles_none hkind hempty⟩
            show Searching.value (if occurrence = .required then _ else _) = _
            rw [if_pos hkind]
            rfl
          · refine ⟨later, ?_, hcompiles.drop hkind hempty⟩
            show Searching.value (if occurrence = .required then _ else _) = _
            rw [if_neg hkind]
            exact hlater

end

end Searcher

/-! ## Sets of expressions -/

/-- The documents below a limit are those with a smaller number. -/
theorem DocumentSet.mem_below {limit document : DocumentId} :
    document ∈ DocumentSet.below limit ↔ document < limit := by
  rw [DocumentSet.below, DocumentSet.mem_ofList, List.mem_map, UInt32.lt_iff_toNat_lt]
  constructor
  · rintro ⟨number, hnumber, rfl⟩
    have hlimit := UInt32.toNat_lt limit
    rw [List.mem_range] at hnumber
    have hsame : number.toUInt32.toNat = number := Nat.mod_eq_of_lt (by omega)
    rwa [hsame]
  · intro hlt
    exact ⟨document.toNat, List.mem_range.2 hlt, UInt32.ofNat_toNat⟩

namespace Searcher

variable {searcher : Searcher}

/-- The query of a term asks for the documents of the places of its tokens. -/
theorem denotes_termQuery {tokens : List String} {places : Option Postings}
    (h : Searching.value (searcher.phrasePostings tokens) = .ok places) (document : DocumentId) :
    searcher.Denotes (Expression.termQuery tokens) document ↔
      ∃ words ∈ places, document ∈ words.documents := by
  match tokens with
  | [] =>
      cases h
      refine iff_of_false (fun hadmits => ?_) fun hfound => ?_
      · have hwanted := Admits.wanted hadmits
        simp [denotations] at hwanted
      · obtain ⟨words, hwords, -⟩ := hfound
        cases hwords
  | [token] => exact (mem_phrasePostings_singleton h).symm
  | first :: second :: rest =>
      show searcher.Denotes (.phrase (first :: second :: rest)) document ↔ _
      rw [Denotes, h]
      simp

/-- The set of an expression has the documents that its query asks for. -/
theorem exists_evaluate (searcher : Searcher) (expression : Expression) :
    ∃ set, Searching.value (searcher.evaluate expression) = .ok set ∧
      ∀ document, document ∈ set ↔ searcher.Denotes expression.toQuery document := by
  induction expression with
  | term tokens =>
      obtain ⟨places, hplaces⟩ := searcher.exists_phrasePostings tokens
      rw [evaluate, Searching.value_bind_of_ok hplaces]
      cases places with
      | none =>
          refine ⟨DocumentSet.empty, rfl, fun document => ?_⟩
          rw [Expression.toQuery, denotes_termQuery hplaces]
          simp [DocumentSet.mem_iff, DocumentSet.empty]
      | some words =>
          refine ⟨DocumentSet.ofList words.documents, rfl, fun document => ?_⟩
          rw [Expression.toQuery, denotes_termQuery hplaces, DocumentSet.mem_ofList]
          simp
  | both left right ihleft ihright =>
      obtain ⟨first, hfirst, hmem⟩ := ihleft
      obtain ⟨second, hsecond, hmem'⟩ := ihright
      have hdenotes : ∀ document, searcher.Denotes (Expression.both left right).toQuery document ↔
          document ∈ first ∧ document ∈ second := by
        intro document
        rw [hmem, hmem']
        exact admits_both
      rw [evaluate, Searching.value_bind_of_ok hfirst]
      by_cases hempty : first.isEmpty = true
      · refine ⟨first, ?_, fun document => ?_⟩
        · rw [if_pos hempty]
          rfl
        · rw [hdenotes]
          have hnil : first.documents = [] := List.isEmpty_iff.1 hempty
          simp [DocumentSet.mem_iff, hnil]
      · refine ⟨first.inter second, ?_, fun document => ?_⟩
        · rw [if_neg hempty]
          exact Searching.value_bind_of_ok hsecond
        · rw [hdenotes, DocumentSet.mem_inter]
  | either left right ihleft ihright =>
      obtain ⟨first, hfirst, hmem⟩ := ihleft
      obtain ⟨second, hsecond, hmem'⟩ := ihright
      refine ⟨first.union second, ?_, fun document => ?_⟩
      · rw [evaluate, Searching.value_bind_of_ok hfirst]
        exact Searching.value_bind_of_ok hsecond
      · rw [DocumentSet.mem_union, hmem, hmem']
        exact admits_either.symm
  | negated inner ih =>
      obtain ⟨set, hset, hmem⟩ := ih
      refine ⟨(DocumentSet.below searcher.statistics.documents).diff set, ?_, fun document => ?_⟩
      · rw [evaluate]
        exact Searching.value_bind_of_ok hset
      · rw [DocumentSet.mem_diff, DocumentSet.mem_below, hmem]
        exact (@admits_except (searcher.Denotes .all) (searcher.Denotes inner.toQuery)
          document).symm

/-! ## What searches yield -/

/-- Draining the scorer of a query visits the documents that the query asks for. -/
theorem exists_hits (h : searcher.Lawful) (query : Query) :
    ∃ hits, Searching.value (searcher.hits query) = .ok hits ∧
      Enumerates (hits.map Hit.document) (searcher.Denotes query) := by
  obtain ⟨found, hfound, hrealizes⟩ := exists_selection h query
  rw [hits, Searching.value_bind_of_ok hfound]
  cases found with
  | none => exact ⟨[], rfl, Enumerates.nil hrealizes.not_of_none⟩
  | some selection =>
      obtain ⟨hwellFormed, hselects⟩ := hrealizes.of_some
      exact ⟨selection.scorer.hits, rfl, hselects ▸ hwellFormed.enumerates_hits⟩

/-- As many documents are counted as are visited. -/
theorem value_count {query : Query} {hits : List Hit}
    (h : Searching.value (searcher.hits query) = .ok hits) :
    Searching.value (searcher.count query) = .ok hits.length :=
  Searching.value_bind_of_ok h

/-- The best documents of a query are all of them if there are no more than may be kept. -/
theorem exists_searchQuery {query : Query} {hits : List Hit}
    (h : Searching.value (searcher.hits query) = .ok hits) {limit : Nat}
    (hlimit : hits.length ≤ limit) :
    ∃ best, Searching.value (searcher.searchQuery query limit) = .ok best ∧ best.Perm hits := by
  refine ⟨_, Searching.value_bind_of_ok h, ?_⟩
  exact TopDocuments.perm_hits_collectAll hlimit

/-- Ranked and unranked search agree. -/
structure Agrees (searcher : Searcher) : Prop where
  /-- Draining the scorer of a query visits the documents that the query asks for, and counting
  tells how many these are. -/
  query : ∀ query, ∃ hits, Searching.value (searcher.hits query) = .ok hits ∧
    Enumerates (hits.map Hit.document) (searcher.Denotes query) ∧
    Searching.value (searcher.count query) = .ok hits.length
  /-- For an expression these are the documents of its set. -/
  expression : ∀ expression, ∃ set hits,
    Searching.value (searcher.evaluate expression) = .ok set ∧
    Searching.value (searcher.hits expression.toQuery) = .ok hits ∧
    hits.map Hit.document = set.documents
  /-- A query text has the same documents either way, if as many may be kept. -/
  found : ∀ text expression, searcher.parser.parse text = .ok (some expression) →
    ∃ documents, Searching.value (searcher.searchBoolean text) = .ok documents ∧
      Searching.value (searcher.count expression.toQuery) = .ok documents.length ∧
      ∀ limit, documents.length ≤ limit →
        ∃ hits, Searching.value (searcher.searchRanked text limit) = .ok hits ∧
          (hits.map Hit.document).Perm documents
  /-- A blank text has none. -/
  blank : ∀ text, searcher.parser.parse text = .ok none →
    Searching.value (searcher.searchBoolean text) = .ok [] ∧
      ∀ limit, Searching.value (searcher.searchRanked text limit) = .ok []
  /-- A text that cannot be read fails in the same way. -/
  failed : ∀ text failure, searcher.parser.parse text = .error failure →
    Searching.value (searcher.searchBoolean text) = .error failure ∧
      ∀ limit, Searching.value (searcher.searchRanked text limit) = .error failure

/-- The set of an expression has the documents that draining visits. -/
theorem Lawful.agrees_expression (h : searcher.Lawful) (expression : Expression) :
    ∃ set hits, Searching.value (searcher.evaluate expression) = .ok set ∧
      Searching.value (searcher.hits expression.toQuery) = .ok hits ∧
      hits.map Hit.document = set.documents := by
  obtain ⟨set, hset, hmem⟩ := searcher.exists_evaluate expression
  obtain ⟨hits, hhits, henumerates⟩ := exists_hits h expression.toQuery
  exact ⟨set, hits, hset, hhits, henumerates.unique ⟨set.sorted, hmem⟩⟩

/-- The ways of asking a lawful searcher agree. -/
theorem Lawful.agrees (h : searcher.Lawful) : searcher.Agrees := by
  constructor
  · intro query
    obtain ⟨hits, hhits, henumerates⟩ := exists_hits h query
    exact ⟨hits, hhits, henumerates, value_count hhits⟩
  · exact h.agrees_expression
  · intro text expression hparse
    obtain ⟨set, hits, hset, hhits, hsame⟩ := h.agrees_expression expression
    have hlength : set.documents.length = hits.length := by
      rw [← hsame, List.length_map]
    refine ⟨set.documents, ?_, hlength ▸ value_count hhits, fun limit hlimit => ?_⟩
    · rw [searchBoolean, Searching.value_liftM_bind_of_ok hparse]
      exact Searching.value_bind_of_ok hset
    · obtain ⟨best, hbest, hperm⟩ := exists_searchQuery hhits (hlength ▸ hlimit)
      refine ⟨best, ?_, hsame ▸ hperm.map Hit.document⟩
      rw [searchRanked, Searching.value_liftM_bind_of_ok hparse]
      exact hbest
  · intro text hparse
    exact ⟨Searching.value_liftM_bind_of_ok hparse, fun limit =>
      Searching.value_liftM_bind_of_ok hparse⟩
  · intro text failure hparse
    exact ⟨Searching.value_liftM_bind_of_error hparse, fun limit =>
      Searching.value_liftM_bind_of_error hparse⟩

end Searcher

namespace Indexer

variable {path : String} {settings : IndexSettings} {documents : List (DocumentId × String)}
  {disk : Disk} {workspace : Workspace}

/-- **Ranked and unranked search agree.** In every index of documents before the last one of all,
repeated or not, the scorer of a query visits the documents that the query asks for, each once and
in ascending order, and these are the documents of the set of an expression. A query text has the
same documents either way. -/
theorem searches_agree (hbuild : build path settings documents disk = .ok workspace)
    (hsized : Sized settings documents workspace)
    (hbelow : ∀ document ∈ documents, document.1 < noMore) (searchPath : String)
    (searchSettings : SearchSettings) :
    ∃ searcher, Searcher.ofDisk workspace.disk searchPath searchSettings = .ok searcher ∧
      searcher.Agrees := by
  obtain ⟨common, hcommon, -, hcommitted⟩ := committed_of_sized hbuild hsized
  obtain ⟨searcher, hopen, -, -, hfound⟩ := hcommitted.searcher
    (hsized.commonTokens common hcommon) hsized.postings searchPath searchSettings
  have hpacks := packs_of_gathered fun unit => (hfound unit).1
  exact ⟨searcher, hopen, (hpacks.lawful hbelow).agrees⟩

set_option maxRecDepth 100000 in
/-- An index in which a document was added twice. -/
theorem searches_agree_repeated : ∃ workspace searcher,
    build "index" (letterSettings 2) [(0, "cab"), (1, "d"), (1, "ab")] {} = .ok workspace ∧
      Searcher.ofDisk workspace.disk "index" { tokenizer := letters } = .ok searcher ∧
      searcher.Agrees := by
  obtain ⟨workspace, hbuild, hsized⟩ := @exists_of_any_sized (letterSettings 2)
    [(0, "cab"), (1, "d"), (1, "ab")] (by decide +kernel)
  obtain ⟨searcher, hopen, hagrees⟩ := searches_agree hbuild hsized (by decide) "index"
    { tokenizer := letters }
  exact ⟨workspace, searcher, hbuild, hopen, hagrees⟩

end Indexer
end Concordance
