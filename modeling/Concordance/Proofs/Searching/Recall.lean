import Concordance.Proofs.Searching.Places
import Concordance.Proofs.Tokenizer.Grams

/-!
# Searches miss no document

A search finds every document in whose indexed tokens the phrase stands
(`Searcher.Packs.exists_places`), even if a token can be taken for the text of a unit: a list then
has places of other runs as well, but none is missing. With the grams that hold no breaking
character a search therefore misses no document with the text as a piece
(`Indexer.breaking_search_complete`), although it may find others.
-/

namespace Concordance

variable {tokenizer : Tokenizer} {documents : List (DocumentId × String)}

namespace Searcher.Packs

variable {searcher : Searcher} {common : CommonTokens} {document : DocumentId} {position : Nat}
  {run phrase tokens : List String}

/-- A unit has a segment with every place where its run stands. -/
theorem exists_segment (h : searcher.Packs (Posted tokenizer common documents))
    (hunit : common.IsUnit run) (hstands : StandsAt tokenizer documents run document position) :
    ∃ words, searcher.segment? (TokenUnit.ofTokens run) = some ⟨words, run.length⟩ ∧
      address document position ∈ words.addresses := by
  have hposted := posted_of_standsAt hunit hstands
  obtain ⟨words, hwords, hunique⟩ := h.packing (joinTokens run) ⟨document, position, hposted⟩
  have hmem := (((hunique words).2 rfl).mem_iff _).2 ⟨document, position, hposted, rfl⟩
  have hne : words.isEmpty = false := by
    cases words with
    | nil => cases hmem
    | cons word rest => rfl
  exact ⟨words, segment?_of_some hwords hne, hmem⟩

/-- Where a phrase stands, its units have segments, and these are chained. -/
theorem exists_segments (h : searcher.Packs (Posted tokenizer common documents))
    {units : List TokenUnit} (hcuts : common.Cuts phrase units)
    (hindexed : Indexed tokenizer documents document tokens)
    (hfront : phrase <+: tokens.drop position) :
    ∃ segments, units.mapM searcher.segment? = some segments ∧
      Chained segments (address document position) := by
  -- the position moves on by one run with each unit
  induction hcuts generalizing position with
  | nil => exact ⟨[], rfl, trivial⟩
  | @cons run later units hrun hlater ih =>
      obtain ⟨hfirst, hrest⟩ := append_prefix_drop.1 hfront
      obtain ⟨words, hsegment, hmem⟩ := h.exists_segment hrun ⟨tokens, hindexed, hfirst⟩
      obtain ⟨segments, hsegments, hchained⟩ := ih hrest
      have hnext : address document position + run.length =
          address document (position + run.length) := Nat.add_assoc _ _ _
      refine ⟨⟨words, run.length⟩ :: segments, ?_, hmem, hnext ▸ hchained⟩
      rw [List.mapM_cons, hsegment, hsegments]
      rfl

/-- A document in whose indexed tokens a phrase stands is one of those of its places. -/
theorem exists_places (h : searcher.Packs (Posted tokenizer searcher.common documents))
    (hlawful : searcher.Lawful) (hphrase : phrase ≠ [])
    (hindexed : Indexed tokenizer documents document tokens) (hpieces : phrase <:+: tokens) :
    ∃ words, Searching.value (searcher.phrasePostings phrase) = .ok (some words) ∧
      document ∈ words.documents := by
  obtain ⟨position, hfront⟩ := infix_iff_exists_prefix.1 hpieces
  obtain ⟨units, hcuts, hplaces⟩ := searcher.exists_units hphrase
  obtain ⟨segments, hsegments, hchained⟩ := h.exists_segments hcuts hindexed hfront
  obtain ⟨hindexable, hsome⟩ := hlawful.segments hcuts hsegments
  have hends := Segment.ends_of_indexable hindexable (hsome hphrase) searcher
  refine ⟨(searcher.chain segments).value, ?_, ?_⟩
  · rw [hplaces, hsegments]
    rfl
  · -- the chain ends in the document in which it begins
    have hmem := (hends.mem_iff _).2 ⟨_, hchained, rfl⟩
    rw [← List.dropLast_concat_getLast (hsome hphrase)] at hindexable hchained
    have hroom := Segment.room_of_chained hindexable hchained
    have hinside := add_length_le hphrase hfront
    have hfew := hindexed.length_le
    rw [address, Nat.add_assoc] at hmem
    rw [address] at hroom
    exact hends.canonical.full.mem_documents.2 ⟨_, by omega, hmem⟩

/-- The places of a phrase are places of documents that were added. -/
theorem exists_added (h : searcher.Packs (Posted tokenizer common documents))
    (hlawful : searcher.Lawful) {words : Postings}
    (hwords : Searching.value (searcher.phrasePostings phrase) = .ok (some words))
    (hdocument : document ∈ words.documents) : ∃ content, (document, content) ∈ documents := by
  obtain ⟨unit, list, hlist, hsubset⟩ := hlawful.exists_unit hwords
  obtain ⟨places, hplaces, hindexable⟩ := hlawful.phrasePostings phrase
  obtain rfl : places = some words := Except.ok.inj (hplaces.symm.trans hwords)
  obtain ⟨place, hplace, hmem⟩ :=
    (hindexable words rfl).canonical.full.mem_documents.1 hdocument
  by_cases hsome : ∃ document position, Posted tokenizer common documents unit document position
  · obtain ⟨packed, hpacked, hunique⟩ := h.packing unit hsome
    obtain rfl : packed = list := Option.some.inj (hpacked.symm.trans hlist)
    obtain ⟨other, position, hposted, hsame⟩ :=
      (((hunique packed).2 rfl).mem_iff _).1 (hsubset _ hmem)
    obtain ⟨rfl, -⟩ := (address_inj hplace (Indexer.lt_limit_of_posted hposted)).1 hsame
    obtain ⟨content, -, hadded, -⟩ := hposted
    exact ⟨content, hadded⟩
  · have hnone := h.missing unit fun document position hposted =>
      hsome ⟨document, position, hposted⟩
    cases hnone.symm.trans hlist

end Searcher.Packs

/-- A search for a text yields, in ascending order, documents that were added, among them all whose
content has the text as a piece. -/
structure Searcher.MissesNone (searcher : Searcher) (documents : List (DocumentId × String))
    (text : String) (found : List DocumentId) : Prop where
  result : Searching.value (searcher.search text) = .ok found
  ascending : found.Pairwise (· < ·)
  added : ∀ document ∈ found, ∃ content, (document, content) ∈ documents
  complete : ∀ document content, (document, content) ∈ documents →
    text.toList <:+: content.toList → document ∈ found

/-- If the tokens of every piece stand in those of a text, a search for a piece misses none of the
documents that have it. -/
theorem Searcher.Packs.missesNone {searcher : Searcher}
    (h : searcher.Packs (Posted tokenizer searcher.common documents)) (hlawful : searcher.Lawful)
    (htokenizer : searcher.settings.tokenizer = tokenizer) {text : String} {phrase : List String}
    (htext : tokenizer.tokens text = .ok phrase) (hphrase : phrase ≠ [])
    (hstands : ∀ document content, (document, content) ∈ documents →
      text.toList <:+: content.toList →
      ∃ tokens, Indexed tokenizer documents document tokens ∧ phrase <:+: tokens) :
    ∃ found, searcher.MissesNone documents text found := by
  obtain ⟨places, hplaces, hindexable⟩ := hlawful.phrasePostings phrase
  have hresult := Searcher.value_search (htokenizer ▸ htext) hplaces
  have hcomplete : ∀ document content, (document, content) ∈ documents →
      text.toList <:+: content.toList → ∃ words ∈ places, document ∈ words.documents := by
    intro document content hcontent hpiece
    obtain ⟨tokens, hindexed, hpieces⟩ := hstands document content hcontent hpiece
    obtain ⟨words, hwords, hdocument⟩ := h.exists_places hlawful hphrase hindexed hpieces
    exact ⟨words, Except.ok.inj (hplaces.symm.trans hwords), hdocument⟩
  cases places with
  | none =>
      refine ⟨[], hresult, List.Pairwise.nil, fun document hdocument => ?_, ?_⟩
      · cases hdocument
      · intro document content hcontent hpiece
        obtain ⟨words, hwords, -⟩ := hcomplete document content hcontent hpiece
        cases hwords
  | some words =>
      refine ⟨words.documents, hresult,
        (hindexable words rfl).canonical.ascending.pairwise_documents,
        fun document hdocument => h.exists_added hlawful hplaces hdocument, ?_⟩
      intro document content hcontent hpiece
      obtain ⟨words', hwords, hdocument⟩ := hcomplete document content hcontent hpiece
      cases hwords
      exact hdocument

/-- Grams of one length can be told from their joined text, also if some are left out. -/
theorem Tokenizer.separable_of_breakingGrams {settings : GramSettings}
    (hcase : settings.lowercase = false)
    (htokens : ∀ text, tokenizer.tokens text = .ok (unbrokenGrams settings text.toList)) :
    tokenizer.Separable := by
  refine (separates_length settings.size).mono fun token hyields => ?_
  obtain ⟨text, tokens, hok, htoken⟩ := hyields
  cases (htokens text).symm.trans hok
  rw [unbrokenGrams_eq, hcase] at htoken
  obtain ⟨window, hwindow, rfl⟩ := List.mem_map.1 htoken
  exact length_gram (List.mem_filter.1 hwindow).1

namespace Indexer

/-- The tokens of a document are its grams if they all can be indexed. -/
theorem indexed_breakingGrams {settings : GramSettings}
    (htokens : ∀ text, tokenizer.tokens text =
      .ok (Tokenizer.unbrokenGrams settings text.toList))
    {document : DocumentId} {content : String} (hcontent : (document, content) ∈ documents)
    (hshort : (Tokenizer.unbrokenGrams settings content.toList).length ≤ Position.limit.toNat) :
    Indexed tokenizer documents document (Tokenizer.unbrokenGrams settings content.toList) :=
  ⟨content, _, hcontent, htokens content, (List.take_of_length_le hshort).symm⟩

/-- **No piece of text is missed.** In an index of the grams without a breaking character, a search
for a text with a gram finds every document whose content has this text as a piece, whatever grams
of the text and of the content are left out. Unless the case of the grams was changed, it finds no
document in whose grams those of the text do not stand one after another. -/
theorem breaking_search_complete {settings : GramSettings} (hsize : 1 ≤ settings.size) :
    ∃ tokenizer, Tokenizer.breakingGrams settings = .ok tokenizer ∧
      ∀ path indexSettings documents disk workspace,
        build path indexSettings documents disk = .ok workspace →
        Sized indexSettings documents workspace →
        indexSettings.tokenizer = tokenizer → Admissible documents →
        (∀ document ∈ documents,
          (Tokenizer.unbrokenGrams settings document.2.toList).length ≤ Position.limit.toNat) →
        ∀ searchPath searchSettings, searchSettings.tokenizer = tokenizer →
          ∃ searcher, Searcher.ofDisk workspace.disk searchPath searchSettings = .ok searcher ∧
            ∀ text : String, Tokenizer.unbrokenGrams settings text.toList ≠ [] →
              ∃ found, searcher.MissesNone documents text found ∧
                (settings.lowercase = false → ∀ document ∈ found, ∃ content,
                  (document, content) ∈ documents ∧
                    Tokenizer.unbrokenGrams settings text.toList <:+:
                      Tokenizer.unbrokenGrams settings content.toList) := by
  obtain ⟨tokenizer, hgrams, htokens⟩ := Tokenizer.exists_breakingGrams hsize
  refine ⟨tokenizer, hgrams, ?_⟩
  intro path indexSettings documents disk workspace hbuild hsized htokenizer hadmissible hshort
    searchPath searchSettings hsearch
  subst htokenizer
  obtain ⟨searcher, hopen, hsettings, hpacks⟩ :=
    exists_searcher hbuild hsized searchPath searchSettings
  have hsame : searcher.settings.tokenizer = indexSettings.tokenizer := by rw [hsettings, hsearch]
  refine ⟨searcher, hopen, fun text htext => ?_⟩
  obtain ⟨found, hmisses⟩ := hpacks.missesNone (hpacks.lawful hadmissible.lt_noMore) hsame
    (htokens text) htext fun document content hcontent hpiece =>
      ⟨_, indexed_breakingGrams htokens hcontent (hshort _ hcontent),
        Tokenizer.infix_unbrokenGrams hpiece⟩
  refine ⟨found, hmisses, fun hcase document hdocument => ?_⟩
  obtain ⟨found', hfinds⟩ := hpacks.findsPhrase_of_separable
    (Tokenizer.separable_of_breakingGrams hcase htokens) hadmissible hsame (htokens text) htext
  obtain rfl : found = found' := Except.ok.inj (hmisses.result.symm.trans hfinds.result)
  obtain ⟨tokens, hindexed, hpieces⟩ := (hfinds.mem_iff document).1 hdocument
  obtain ⟨content, hcontent⟩ := hmisses.added document hdocument
  rw [hindexed.unique hadmissible
    (indexed_breakingGrams htokens hcontent (hshort _ hcontent))] at hpieces
  exact ⟨content, hcontent, hpieces⟩

/-! ## A small index of grams with breaks -/

/-- Pairs of characters without an underscore. -/
def brokenPairs : GramSettings :=
  { size := 2, breaking := some ['_'] }

/-- The tokenizer of these pairs. -/
def pairsBetween : Tokenizer :=
  { name := "breaking_ngram"
    normalize := id
    tokenize := fun text =>
      .ok (((Tokenizer.windows 2 text.toList).filter (Tokenizer.unbroken brokenPairs)).map
        (Tokenizer.gram true)) }

/-- The tokenizer of pairs is that of grams of two characters without a break. -/
theorem breakingGrams_brokenPairs : Tokenizer.breakingGrams brokenPairs = .ok pairsBetween := by
  unfold Tokenizer.breakingGrams
  rw [if_neg (by decide)]
  simp only [Tokenizer.unbrokenGrams_eq]
  rfl

/-- Settings with a common pair. -/
def brokenSettings : IndexSettings :=
  { batchSize := 1, common := .list ["ab"], tokenizer := pairsBetween }

/-- A document with several breaks, and one with none. -/
def brokenDocuments : List (DocumentId × String) :=
  [(1, "xAB_C__DEy"), (7, "ab")]

set_option maxRecDepth 100000 in
/-- A text that spans two breaks and a run that is shorter than a gram. -/
theorem breaking_search_complete_across_breaks :
    ∃ workspace searcher found,
      build "index" brokenSettings brokenDocuments {} = .ok workspace ∧
      Searcher.ofDisk workspace.disk "index" { tokenizer := pairsBetween } = .ok searcher ∧
      searcher.MissesNone brokenDocuments "AB_C__DE" found ∧ 1 ∈ found := by
  have hrun : (build "index" brokenSettings brokenDocuments {}).toOption.any (fun workspace =>
      ClearlyFit (portionsOf brokenSettings brokenDocuments) workspace.disk) = true := by
    decide +kernel
  obtain ⟨workspace, hbuild, hsized⟩ := exists_of_any_sized hrun
  obtain ⟨tokenizer, hgrams, hcomplete⟩ :=
    @breaking_search_complete brokenPairs (by decide)
  obtain rfl : pairsBetween = tokenizer :=
    Except.ok.inj (breakingGrams_brokenPairs.symm.trans hgrams)
  obtain ⟨searcher, hopen, hfinds⟩ := hcomplete "index" brokenSettings brokenDocuments {} workspace
    hbuild hsized rfl ⟨by decide, by decide⟩ (by
      simp only [Tokenizer.unbrokenGrams_eq]
      decide +kernel) "index" { tokenizer := pairsBetween } rfl
  obtain ⟨found, hfound, -⟩ := hfinds "AB_C__DE" (by
    rw [Tokenizer.unbrokenGrams_eq]
    decide +kernel)
  exact ⟨workspace, searcher, found, hbuild, hopen, hfound,
    hfound.complete 1 "xAB_C__DEy" (by decide) (by decide +kernel)⟩

end Indexer
end Concordance
