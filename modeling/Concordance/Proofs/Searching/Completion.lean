import Concordance.Proofs.Query.Completion
import Concordance.Proofs.Searching.Ranking

/-!
# Searching for words that end in a star

The vocabulary of a searcher has the keys of its directory without a space. These are the tokens
that stand in documents, for the units of several tokens have a space between them
(`exists_posted_iff`). A word that ends in a star is evaluated as any of the tokens that begin with
the token in front of the star, so that it finds the documents with such a token
(`Indexer.completion_search_exact`).
-/

namespace Concordance

variable {tokenizer : Tokenizer} {documents : List (DocumentId × String)} {document : DocumentId}
  {common : CommonTokens} {unit : String}

/-! ## Units without a space -/

/-- Two tokens are joined with a space between them. -/
theorem not_spaceless_joinTokens {run : List String} (h : 2 ≤ run.length) :
    ¬ Spaceless (joinTokens run) := by
  match run, h with
  | token :: other :: rest, _ =>
      rw [Spaceless, Classical.not_not, toList_joinTokens_cons]
      exact List.mem_append_right _ List.mem_cons_self

/-- A unit without a space occurs only where it stands as a token. -/
theorem CommonTokens.occurs_of_spaceless {tokens : List String} {position : Nat}
    (hspaceless : Spaceless unit) :
    common.Occurs tokens unit position ↔ tokens[position]? = some unit := by
  refine ⟨fun h => ?_, Or.inl⟩
  rcases h with h | ⟨length, htwo, hlength, rfl⟩
  · exact h
  · have hle := (lt_windowEnd_iff.1 hlength).1
    refine absurd hspaceless (not_spaceless_joinTokens ?_)
    rwa [List.length_take_of_le hle]

/-- A unit without a space is posted in the documents that have it as a token, whatever the common
tokens are. -/
theorem exists_posted_iff (hspaceless : Spaceless unit) :
    (∃ position, Posted tokenizer common documents unit document position) ↔
      ∃ tokens, Indexed tokenizer documents document tokens ∧ unit ∈ tokens := by
  constructor
  · intro h
    obtain ⟨position, content, all, hadded, hall, hoccurs⟩ := h
    exact ⟨_, ⟨content, all, hadded, hall, rfl⟩, List.mem_of_getElem?
      ((CommonTokens.occurs_of_spaceless hspaceless).1 hoccurs)⟩
  · intro h
    obtain ⟨tokens, ⟨content, all, hadded, hall, rfl⟩, hmem⟩ := h
    obtain ⟨position, hposition⟩ := List.getElem?_of_mem hmem
    exact ⟨position, content, all, hadded, hall, Or.inl hposition⟩

/-! ## What searchers find -/

namespace Searcher

variable {searcher : Searcher}

/-- The list of a unit has the documents in which the unit is posted. -/
theorem Packs.mem_postings (h : searcher.Packs (Posted tokenizer common documents)) :
    (∃ words ∈ searcher.postings unit, document ∈ words.documents) ↔
      ∃ position, Posted tokenizer common documents unit document position := by
  by_cases hsome : ∃ document position, Posted tokenizer common documents unit document position
  · obtain ⟨words, hwords, hunique⟩ := h.packing unit hsome
    have hpacking := (hunique words).2 rfl
    rw [← (Indexer.exists_distinct hpacking fun _ _ hposted =>
      Indexer.lt_limit_of_posted hposted).2, hwords]
    simp
  · have hnone := h.missing unit fun document position hposted =>
      hsome ⟨document, position, hposted⟩
    rw [hnone]
    refine iff_of_false (fun hfound => ?_) fun hposted => hsome ⟨document, hposted⟩
    obtain ⟨words, hwords, -⟩ := hfound
    cases hwords

/-- A word is completed to the units with a list that have no space and begin with the stem. -/
theorem mem_completions_vocabulary {start token : String} :
    token ∈ searcher.vocabulary.completions start ↔
      (∃ words, searcher.postings token = some words) ∧ Spaceless token ∧
        start.toList <+: token.toList := by
  have hkeys : token ∈ searcher.directory.keys ↔ ∃ words, searcher.postings token = some words := by
    rw [Table.mem_keys, postings]
    cases searcher.directory.find? token with
    | none => simp
    | some entry => simp
  rw [vocabulary, Vocabulary.mem_completions, List.mem_filter, hkeys, Bytes.ofText_prefix_iff,
    and_assoc]
  simp [Spaceless]

/-- A disjunction asks for what one of its parts asks for. -/
theorem denotes_foldl_either (first : Expression) (rest : List Expression) :
    searcher.Denotes (rest.foldl .either first).toQuery document ↔
      searcher.Denotes first.toQuery document ∨
        ∃ expression ∈ rest, searcher.Denotes expression.toQuery document := by
  induction rest generalizing first with
  | nil => simp
  | cons next rest ih =>
      have heither : searcher.Denotes (Expression.either first next).toQuery document ↔
          searcher.Denotes first.toQuery document ∨ searcher.Denotes next.toQuery document :=
        admits_either
      rw [List.foldl_cons, ih, heither, or_assoc]
      simp

/-- A disjunction of no expressions at all asks for nothing. -/
theorem denotes_eitherOf (expressions : List Expression) :
    searcher.Denotes ((Expression.eitherOf expressions).getD (.term [])).toQuery document ↔
      ∃ expression ∈ expressions, searcher.Denotes expression.toQuery document := by
  cases expressions with
  | nil =>
      have hnothing := denotes_termQuery
        (show Searching.value (searcher.phrasePostings []) = .ok none from rfl) document
      show searcher.Denotes (Expression.termQuery []) document ↔ _
      rw [hnothing]
      simp
  | cons first rest =>
      show searcher.Denotes (rest.foldl Expression.either first).toQuery document ↔ _
      rw [denotes_foldl_either, List.exists_mem_cons_iff]

/-- A word that is completed asks for the documents of its completions. -/
theorem denotes_completed {vocabulary : Vocabulary} {start : String} :
    searcher.Denotes (QueryParser.completed vocabulary start).toQuery document ↔
      ∃ token ∈ vocabulary.completions start,
        ∃ words ∈ searcher.postings token, document ∈ words.documents := by
  have hterm : ∀ token, searcher.Denotes (Expression.term [token]).toQuery document ↔
      ∃ words ∈ searcher.postings token, document ∈ words.documents := fun token => Iff.rfl
  rw [QueryParser.completed, denotes_eitherOf]
  simp only [List.mem_map, exists_exists_and_eq_and, hterm]

/-- A searcher that finds the packings of all units finds, for a word that ends in a star, the
documents with a token that begins with the one in front of the star. -/
theorem Packs.finds_completions (h : searcher.Packs (Posted tokenizer common documents))
    (hspaceless : tokenizer.Spaceless) {stem start : String}
    (hstem : ∀ c ∈ stem.toList, ¬ Lexeme.Delimits c)
    (hstart : searcher.settings.tokenizer.tokens stem = .ok [start]) :
    ∃ found, Searching.value (searcher.searchBoolean (stem ++ "*")) = .ok found ∧
      found.Pairwise (· < ·) ∧ ∀ document, document ∈ found ↔
        ∃ tokens, Indexed tokenizer documents document tokens ∧
          ∃ token ∈ tokens, start.toList <+: token.toList := by
  have hparse : searcher.parser.parse (stem ++ "*") =
      .ok (some (QueryParser.completed searcher.vocabulary start)) :=
    QueryParser.parse_starred rfl hstem hstart
  obtain ⟨set, hset, hmem⟩ :=
    searcher.exists_evaluate (QueryParser.completed searcher.vocabulary start)
  refine ⟨set.documents, ?_, set.sorted, fun document => ?_⟩
  · rw [searchBoolean, Searching.value_liftM_bind_of_ok hparse]
    exact Searching.value_bind_of_ok hset
  · have hdocument : document ∈ set.documents ↔ document ∈ set := Iff.rfl
    rw [hdocument, hmem, denotes_completed]
    constructor
    · intro hfound
      obtain ⟨token, htoken, hwords⟩ := hfound
      obtain ⟨-, hbare, hprefix⟩ := mem_completions_vocabulary.1 htoken
      obtain ⟨tokens, hindexed, hstands⟩ := (exists_posted_iff hbare).1 (h.mem_postings.1 hwords)
      exact ⟨tokens, hindexed, token, hstands, hprefix⟩
    · intro hfound
      obtain ⟨tokens, hindexed, token, hstands, hprefix⟩ := hfound
      obtain ⟨text, all, hall, hyields⟩ := hindexed.yields token hstands
      have hbare := hspaceless text all hall token hyields
      have hwords := h.mem_postings.2 ((exists_posted_iff hbare).2 ⟨tokens, hindexed, hstands⟩)
      obtain ⟨words, hlist, -⟩ := id hwords
      exact ⟨token, mem_completions_vocabulary.2 ⟨⟨words, hlist⟩, hbare, hprefix⟩, hwords⟩

end Searcher

namespace Indexer

variable {path : String} {settings : IndexSettings} {disk : Disk} {workspace : Workspace}

/-- **Words that end in a star find tokens by their beginning.** If the tokenizer of the queries
yields a single token for what stands in front of the star, the search finds the documents in whose
indexed tokens one begins with that token, and no others. The common tokens make no difference. -/
theorem completion_search_exact (hbuild : build path settings documents disk = .ok workspace)
    (hsized : Sized settings documents workspace) (hspaceless : settings.tokenizer.Spaceless)
    (searchPath : String) (searchSettings : SearchSettings) :
    ∃ searcher, Searcher.ofDisk workspace.disk searchPath searchSettings = .ok searcher ∧
      ∀ stem start, (∀ c ∈ stem.toList, ¬ Lexeme.Delimits c) →
        searchSettings.tokenizer.tokens stem = .ok [start] →
        ∃ found, Searching.value (searcher.searchBoolean (stem ++ "*")) = .ok found ∧
          found.Pairwise (· < ·) ∧ ∀ document, document ∈ found ↔
            ∃ tokens, Indexed settings.tokenizer documents document tokens ∧
              ∃ token ∈ tokens, start.toList <+: token.toList := by
  obtain ⟨searcher, hopen, hsettings, hpacks⟩ :=
    exists_searcher hbuild hsized searchPath searchSettings
  exact ⟨searcher, hopen, fun stem start hstem hstart =>
    hpacks.finds_completions hspaceless hstem (hsettings ▸ hstart)⟩

/-! ## A small index -/

/-- Cuts a text at its spaces. -/
def blanks : Tokenizer where
  name := "blanks"
  normalize := id
  tokenize := fun text => .ok ((text.toList.splitOn ' ').map String.ofList)

/-- The parts between blanks have no blanks. -/
theorem not_mem_of_mem_splitOn {characters part : List Char} (h : part ∈ characters.splitOn ' ') :
    ' ' ∉ part := by
  induction characters generalizing part with
  | nil =>
      rw [List.splitOn_nil] at h
      rw [List.mem_singleton.1 h]
      exact List.not_mem_nil
  | cons c characters ih =>
      rw [List.splitOn_cons_eq_if_modifyHead] at h
      split at h
      · rcases List.mem_cons.1 h with rfl | h
        · exact List.not_mem_nil
        · exact ih h
      · rename_i hother
        obtain ⟨first, rest, hsplit⟩ :=
          List.exists_cons_of_ne_nil (List.splitOn_ne_nil ' ' characters)
        rw [hsplit] at h ih
        rcases List.mem_cons.1 h with rfl | h
        · intro hmem
          rcases List.mem_cons.1 hmem with hsame | hmem
          · exact hother (beq_iff_eq.2 hsame.symm)
          · exact ih List.mem_cons_self hmem
        · exact ih (List.mem_cons_of_mem first h)

/-- Cutting at blanks yields tokens without blanks. -/
theorem spaceless_blanks : blanks.Spaceless := by
  intro text tokens htokens token htoken
  cases htokens
  obtain ⟨part, hpart, rfl⟩ := List.mem_map.1 htoken
  rw [Spaceless, String.toList_ofList]
  exact not_mem_of_mem_splitOn hpart

/-- Settings with a common token, which is merged with its neighbours. -/
def catSettings : IndexSettings :=
  { batchSize := 2, common := .list ["cat"], tokenizer := blanks }

/-- Documents of which three have a token that begins with `ca`. -/
def catDocuments : List (DocumentId × String) :=
  [(1, "a cat sat"), (2, "cattle"), (4, "the cat"), (7, "the other")]

set_option maxRecDepth 100000 in
/-- A completed word finds the three documents, and not the one without such a token. -/
theorem completion_search_exact_merged :
    ∃ workspace searcher found, build "index" catSettings catDocuments {} = .ok workspace ∧
      Searcher.ofDisk workspace.disk "index" { tokenizer := blanks } = .ok searcher ∧
      Searching.value (searcher.searchBoolean "ca*") = .ok found ∧
      1 ∈ found ∧ 2 ∈ found ∧ 4 ∈ found ∧ 7 ∉ found := by
  have hrun : (build "index" catSettings catDocuments {}).toOption.any (fun workspace =>
      ClearlyFit (portionsOf catSettings catDocuments) workspace.disk) = true := by
    decide +kernel
  obtain ⟨workspace, hbuild, hsized⟩ := exists_of_any_sized hrun
  obtain ⟨searcher, hopen, hfinds⟩ := completion_search_exact hbuild hsized spaceless_blanks "index"
    { tokenizer := blanks }
  have hstem : ∀ c ∈ "ca".toList, ¬ Lexeme.Delimits c := by
    have hletters : "ca".toList = ['c', 'a'] := by decide
    rw [hletters]
    exact List.forall_mem_cons.2 ⟨by decide, List.forall_mem_singleton.2 (by decide)⟩
  obtain ⟨found, hfound, -, hmem⟩ := hfinds "ca" "ca" hstem (by decide +kernel)
  have hindexed : ∀ document content tokens, (document, content) ∈ catDocuments →
      blanks.tokens content = .ok tokens → tokens.length ≤ Position.limit.toNat →
      Indexed blanks catDocuments document tokens :=
    fun document content tokens hadded htokens hfew =>
      ⟨content, tokens, hadded, htokens, (List.take_of_length_le hfew).symm⟩
  refine ⟨workspace, searcher, found, hbuild, hopen, hfound,
    (hmem 1).2 ⟨["a", "cat", "sat"], ?_, "cat", by decide, by decide⟩,
    (hmem 2).2 ⟨["cattle"], ?_, "cattle", by decide, by decide⟩,
    (hmem 4).2 ⟨["the", "cat"], ?_, "cat", by decide, by decide⟩, fun hfound => ?_⟩
  · exact hindexed 1 "a cat sat" _ (by decide) (by decide +kernel) (by decide)
  · exact hindexed 2 "cattle" _ (by decide) (by decide +kernel) (by decide)
  · exact hindexed 4 "the cat" _ (by decide) (by decide +kernel) (by decide)
  · obtain ⟨tokens, hother, token, htoken, hprefix⟩ := (hmem 7).1 hfound
    have hadmissible : Admissible catDocuments := ⟨by decide, by decide⟩
    rw [hother.unique hadmissible
      (hindexed 7 "the other" ["the", "other"] (by decide) (by decide +kernel) (by decide))]
      at htoken
    revert token
    decide

end Indexer
end Concordance
