import Concordance.Proofs.Searching.Phrase
import Concordance.Proofs.Tokenizer.Grams

/-!
# Searching for pieces of text

With the tokenizer of grams a phrase search is a search for a piece of text
(`Indexer.gram_search_exact`). Grams may have spaces in them, but all of them have one length, so
that they can still be told from the texts of the units.
-/

namespace Concordance

/-- Tokens of one length can be told from their joined text. -/
theorem Tokenizer.separable_of_grams {tokenizer : Tokenizer} {size : Nat}
    (htokens : ∀ text, tokenizer.tokens text =
      .ok ((windows size text.toList).map (gram false))) : tokenizer.Separable := by
  refine (separates_length size).mono fun token hyields => ?_
  obtain ⟨text, tokens, hok, htoken⟩ := hyields
  cases (htokens text).symm.trans hok
  obtain ⟨window, hwindow, rfl⟩ := List.mem_map.1 htoken
  exact length_gram hwindow

/-- A search for a text yields, in ascending order, the documents whose content has the text as a
piece. -/
structure Searcher.FindsText (searcher : Searcher) (documents : List (DocumentId × String))
    (text : String) (found : List DocumentId) : Prop where
  result : Searching.value (searcher.search text) = .ok found
  ascending : found.Pairwise (· < ·)
  mem_iff : ∀ document, document ∈ found ↔
    ∃ content, (document, content) ∈ documents ∧ text.toList <:+: content.toList

/-- The tokens of a document are its grams if they all can be indexed. -/
theorem indexed_iff_of_grams {tokenizer : Tokenizer} {size : Nat}
    (htokens : ∀ text, tokenizer.tokens text =
      .ok ((Tokenizer.windows size text.toList).map (Tokenizer.gram false)))
    {documents : List (DocumentId × String)}
    (hshort : ∀ document ∈ documents,
      (Tokenizer.windows size document.2.toList).length ≤ Position.limit.toNat)
    {document : DocumentId} {tokens : List String} :
    Indexed tokenizer documents document tokens ↔
      ∃ content, (document, content) ∈ documents ∧
        tokens = (Tokenizer.windows size content.toList).map (Tokenizer.gram false) := by
  have htake : ∀ content, (document, content) ∈ documents →
      ((Tokenizer.windows size content.toList).map (Tokenizer.gram false)).take
        Position.limit.toNat =
        (Tokenizer.windows size content.toList).map (Tokenizer.gram false) := by
    intro content hcontent
    refine List.take_of_length_le ?_
    rw [List.length_map]
    exact hshort _ hcontent
  constructor
  · intro h
    obtain ⟨content, all, hcontent, hall, rfl⟩ := h
    cases (htokens content).symm.trans hall
    exact ⟨content, hcontent, htake content hcontent⟩
  · intro h
    obtain ⟨content, hcontent, rfl⟩ := h
    exact ⟨content, _, hcontent, htokens content, (htake content hcontent).symm⟩

namespace Indexer

/-- **Gram search is a search for pieces of text.** In an index of grams a search for a text of at
least the size of a gram finds the documents whose content has this text as a piece. -/
theorem gram_search_exact {size : Nat} (hsize : 1 ≤ size) :
    ∃ tokenizer, Tokenizer.grams size false = .ok tokenizer ∧
      ∀ path settings documents disk workspace,
        build path settings documents disk = .ok workspace → Sized settings documents workspace →
        settings.tokenizer = tokenizer → Admissible documents →
        (∀ document ∈ documents,
          (Tokenizer.windows size document.2.toList).length ≤ Position.limit.toNat) →
        ∀ searchPath searchSettings, searchSettings.tokenizer = tokenizer →
          ∃ searcher, Searcher.ofDisk workspace.disk searchPath searchSettings = .ok searcher ∧
            ∀ text : String, size ≤ text.toList.length →
              ∃ found, searcher.FindsText documents text found := by
  obtain ⟨tokenizer, hgrams, htokens⟩ := Tokenizer.exists_grams hsize false
  refine ⟨tokenizer, hgrams, ?_⟩
  intro path settings documents disk workspace hbuild hsized htokenizer hadmissible hshort
    searchPath searchSettings hsearch
  subst htokenizer
  obtain ⟨common, hcommon, -, hcommitted⟩ := committed_of_sized hbuild hsized
  obtain ⟨searcher, hopen, hsettings, rfl, hfound⟩ := hcommitted.searcher
    (hsized.commonTokens common hcommon) hsized.postings searchPath searchSettings
  have hpacks := packs_of_gathered fun unit => (hfound unit).1
  refine ⟨searcher, hopen, fun text htext => ?_⟩
  have hphrase : (Tokenizer.windows size text.toList).map (Tokenizer.gram false) ≠ [] :=
    fun hnil => Tokenizer.windows_ne_nil hsize htext (List.map_eq_nil_iff.1 hnil)
  obtain ⟨found, hfinds⟩ := hpacks.findsPhrase_of_separable
    (Tokenizer.separable_of_grams htokens) hadmissible (by rw [hsettings, hsearch]) (htokens text)
    hphrase
  refine ⟨found, hfinds.result, hfinds.ascending, fun document => ?_⟩
  rw [hfinds.mem_iff]
  constructor
  · intro h
    obtain ⟨tokens, hindexed, hinfix⟩ := h
    obtain ⟨content, hcontent, rfl⟩ := (indexed_iff_of_grams htokens hshort).1 hindexed
    exact ⟨content, hcontent, (Tokenizer.grams_infix_iff hsize htext).1 hinfix⟩
  · intro h
    obtain ⟨content, hcontent, hinfix⟩ := h
    exact ⟨_, (indexed_iff_of_grams htokens hshort).2 ⟨content, hcontent, rfl⟩,
      (Tokenizer.grams_infix_iff hsize htext).2 hinfix⟩

/-! ## A small index of grams -/

/-- The tokenizer of pairs of characters. -/
def pairs : Tokenizer :=
  { name := "ngram"
    normalize := id
    tokenize := fun text =>
      .ok ((Tokenizer.windows 2 text.toList).map (Tokenizer.gram false)) }

/-- Settings with a common pair that ends with a space. -/
def pairSettings : IndexSettings :=
  { batchSize := 1, common := .list ["a "], tokenizer := pairs }

/-- Two documents that differ by a space. -/
def pairDocuments : List (DocumentId × String) :=
  [(0, "a b"), (1, "ab")]

set_option maxRecDepth 100000 in
/-- The space in the middle of a text counts, also where it ends one pair and begins the next. -/
theorem gram_search_exact_space :
    ∃ workspace searcher found,
      build "index" pairSettings pairDocuments {} = .ok workspace ∧
      Searcher.ofDisk workspace.disk "index" { tokenizer := pairs } = .ok searcher ∧
      searcher.FindsText pairDocuments "a b" found ∧ 0 ∈ found ∧ 1 ∉ found := by
  have hrun : (build "index" pairSettings pairDocuments {}).toOption.any (fun workspace =>
      ClearlyFit (portionsOf pairSettings pairDocuments) workspace.disk) = true := by
    decide +kernel
  obtain ⟨workspace, hbuild, hsized⟩ := exists_of_any_sized hrun
  obtain ⟨tokenizer, hgrams, hexact⟩ := gram_search_exact (show 1 ≤ 2 by decide)
  obtain rfl : pairs = tokenizer := Except.ok.inj hgrams
  obtain ⟨searcher, hopen, hfinds⟩ := hexact "index" pairSettings pairDocuments {} workspace hbuild
    hsized rfl ⟨by decide, by decide⟩ (by decide +kernel) "index" { tokenizer := pairs } rfl
  obtain ⟨found, hfound⟩ := hfinds "a b" (by decide +kernel)
  refine ⟨workspace, searcher, found, hbuild, hopen, hfound, ?_, ?_⟩
  · exact (hfound.mem_iff 0).2 ⟨"a b", by decide, List.infix_refl _⟩
  · intro hmem
    obtain ⟨content, hcontent, hinfix⟩ := (hfound.mem_iff 1).1 hmem
    have hsame : content = "ab" := by
      simpa [pairDocuments] using hcontent
    rw [hsame] at hinfix
    exact absurd hinfix (by decide +kernel)

end Indexer
end Concordance
