import Concordance.Proofs.Ranking.Term
import Concordance.Proofs.Searching.Phrase

/-!
# Places of arbitrary phrases

Documents may be added several times, and phrases may be of tokens that no text has. Even so the
lists of an index are `Indexable`: canonical, with addresses that leave room for a unit behind each
position. Hence segments never reach into the next document (`Segment.room_of_chained`), and
the places of any phrase are again such a list (`Searcher.Lawful.phrasePostings`).
-/

namespace Concordance

namespace Postings

/-- A list is canonical, and its addresses are those of positions that are indexed, in documents
before the last one of all. -/
structure Indexable (words : Postings) : Prop where
  canonical : words.Canonical
  position_lt : ∀ x ∈ words.addresses, x % 2 ^ 20 < 16 * 65535
  document_lt : ∀ x ∈ words.addresses, x / 2 ^ 20 < 2 ^ 32 - 1

namespace Indexable

variable {words other : Postings}

/-- What is left of an indexable list is indexable, as long as it is canonical. -/
theorem of_subset (h : words.Indexable) (hcanonical : other.Canonical)
    (hsubset : ∀ x ∈ other.addresses, x ∈ words.addresses) : other.Indexable :=
  ⟨hcanonical, fun x hx => h.position_lt x (hsubset x hx),
    fun x hx => h.document_lt x (hsubset x hx)⟩

/-- The words of an indexable list are in the order of their documents. -/
theorem byDocument (h : words.Indexable) : words.ByDocument :=
  List.pairwise_map.1 h.canonical.ascending.pairwise_document

/-- The documents of an indexable list are before the place behind all documents. -/
theorem document_lt_noMore (h : words.Indexable) {word : Word} (hword : word ∈ words) :
    word.document < noMore := by
  obtain ⟨x, hx⟩ := Word.bitmap_ne_zero_iff.1 (h.canonical.full word hword)
  have hslot := (Word.mem_addresses.1 hx).1
  have hlt := h.document_lt x (mem_addresses.2 ⟨word, hword, hx⟩)
  rw [UInt32.lt_iff_toNat_lt, Word.toNat_document, toNat_noMore]
  omega

/-- The documents of an indexable list all have a bit. -/
theorem hasDocument_iff (h : words.Indexable) {document : DocumentId} :
    words.HasDocument document ↔ document ∈ words.documents := by
  rw [mem_documents]
  constructor
  · intro hfound
    obtain ⟨word, hword, hdocument, -⟩ := hfound
    exact ⟨word, hword, hdocument⟩
  · intro hfound
    obtain ⟨word, hword, hdocument⟩ := hfound
    exact ⟨word, hword, hdocument, h.canonical.full word hword⟩

/-- The list can be moved as far as positions reach, and by one unit more. -/
theorem movable (h : words.Indexable) {length : Nat} (hlength : length ≤ 16 * 65535 + 3) :
    Movable length words := by
  have hlt : length < 2 ^ 32 := by omega
  have hnumber : length.toUInt32.toNat = length := Nat.mod_eq_of_lt hlt
  refine ⟨hlt, .of_addresses h.canonical.full fun x hx => ?_⟩
  have hdocument := h.document_lt x hx
  rw [hnumber]
  omega

end Indexable
end Postings

/-! ## Segments -/

namespace Segment

/-- A segment of a unit that is indexed. -/
structure Indexable (segment : Segment) : Prop where
  short : segment.length ≤ 3
  words : segment.words.Indexable

variable {segments covered : List Segment} {last : Segment} {x : Nat}

/-- Where segments are chained, they end in the document in which they begin. -/
theorem room_of_chained (h : ∀ segment ∈ covered ++ [last], segment.Indexable)
    (hchained : Chained (covered ++ [last]) x) : x % 2 ^ 20 + span covered < 16 * 65535 := by
  -- no unit is longer than the room behind the last position that is indexed
  induction covered generalizing x with
  | nil => exact (h last List.mem_cons_self).words.position_lt x hchained.1
  | cons segment rest ih =>
      have hsegment := h segment List.mem_cons_self
      have hposition := hsegment.words.position_lt x hchained.1
      have hshort := hsegment.short
      have hlater := ih (fun other hother => h other (List.mem_cons_of_mem _ hother)) hchained.2
      rw [span_cons]
      omega

/-- Segments of units that are indexed leave room for each other. -/
theorem roomy_of_indexable (h : ∀ segment ∈ segments, segment.Indexable) : Roomy segments := by
  constructor
  · intro segment hsegment
    have hindexable := h segment (List.dropLast_subset _ hsegment)
    have hshort := hindexable.short
    exact hindexable.words.movable (by omega)
  · rintro front left covered last back rfl ⟨x, hchained⟩
    have hleft := h left (by simp)
    have hshort := hleft.short
    have hroom := room_of_chained (fun segment hsegment => h segment (by
      rw [List.append_cons covered last back]
      exact List.mem_append_right _ (List.mem_cons_of_mem _ (List.mem_append_left _ hsegment))))
      hchained
    refine hleft.words.movable ?_
    rw [span_cons]
    omega

/-- Chaining segments that are indexable finds the ends of all of them. -/
theorem ends_of_indexable (h : ∀ segment ∈ segments, segment.Indexable) (hne : segments ≠ [])
    (searcher : Searcher) : Ends segments (searcher.chain segments).value :=
  Searcher.chain_ends_of_canonical (fun segment hsegment => (h segment hsegment).words.canonical)
    (roomy_of_indexable h) hne

/-- Chaining segments leaves addresses of the last of them. -/
theorem indexable_chain (h : ∀ segment ∈ segments, segment.Indexable) (hne : segments ≠ [])
    (searcher : Searcher) : (searcher.chain segments).value.Indexable := by
  have hends := ends_of_indexable h hne searcher
  exact (h _ (List.getLast_mem hne)).words.of_subset hends.canonical fun y hy =>
    hends.mem_last hne hy

end Segment

/-! ## Phrases -/

namespace CommonTokens.Cuts

variable {common : CommonTokens} {tokens : List String} {units : List TokenUnit}

/-- A single token is cut into itself. -/
theorem eq_singleton (h : common.Cuts tokens units) {token : String} (htokens : tokens = [token]) :
    units = [TokenUnit.ofTokens [token]] := by
  cases h with
  | nil => cases htokens
  | cons hrun hlater =>
      obtain ⟨hnil, -⟩ | ⟨rfl, hend⟩ := List.append_eq_singleton_iff.1 htokens
      · exact absurd hnil hrun.1
      · rw [hlater.eq_nil hend]

end CommonTokens.Cuts

/-- No document that may be added is the place behind all documents. -/
theorem Admissible.lt_noMore {documents : List (DocumentId × String)}
    (h : Admissible documents) : ∀ document ∈ documents, document.1 < noMore :=
  fun document hdocument => UInt32.lt_iff_toNat_lt.2 (h.below document hdocument)

namespace Searcher

variable {searcher : Searcher} {tokens : List String}

/-- All lists of an index are indexable. -/
def Lawful (searcher : Searcher) : Prop :=
  ∀ unit, ∀ words ∈ searcher.postings unit, words.Indexable

/-- The lists of documents that were added, none of which is the last one of all. -/
theorem Packs.lawful {tokenizer : Tokenizer} {common : CommonTokens}
    {documents : List (DocumentId × String)}
    (h : searcher.Packs (Posted tokenizer common documents))
    (hbelow : ∀ document ∈ documents, document.1 < noMore) : searcher.Lawful := by
  intro unit words hwords
  by_cases hsome : ∃ document position, Posted tokenizer common documents unit document position
  · obtain ⟨packed, hpacked, hunique⟩ := h.packing unit hsome
    obtain rfl : packed = words := Option.some.inj (hpacked.symm.trans hwords)
    have hpacking := (hunique packed).2 rfl
    have hplaces : ∀ x ∈ packed.addresses, ∃ document position, document < noMore ∧
        position < 16 * 65535 ∧ x = address document position := by
      intro x hx
      obtain ⟨document, position, ⟨content, all, hadded, -, hoccurs⟩, rfl⟩ :=
        (hpacking.mem_iff x).1 hx
      exact ⟨document, position, hbelow _ hadded,
        Nat.lt_of_lt_of_le hoccurs.lt_length (List.length_take_le _ _), rfl⟩
    refine ⟨hpacking.canonical, fun x hx => ?_, fun x hx => ?_⟩
    all_goals
      obtain ⟨document, position, hdocument, hposition, rfl⟩ := hplaces x hx
      rw [UInt32.lt_iff_toNat_lt, toNat_noMore] at hdocument
      rw [address]
      omega
  · have hnone := h.missing unit fun document position hposted =>
      hsome ⟨document, position, hposted⟩
    cases hnone.symm.trans hwords

/-- The segment of a unit has the list of the unit. -/
theorem segment?_eq_some {unit : TokenUnit} {segment : Segment}
    (h : searcher.segment? unit = some segment) :
    searcher.postings unit.text = some segment.words ∧ segment.length = unit.length := by
  unfold segment? at h
  split at h
  · rename_i words hwords
    split at h
    · cases h
    · cases h
      exact ⟨hwords, rfl⟩
  · cases h

/-- Every segment is that of a unit. -/
theorem exists_unit_of_mem {units : List TokenUnit} {segments : List Segment}
    (h : units.mapM searcher.segment? = some segments) {segment : Segment}
    (hsegment : segment ∈ segments) : ∃ unit, searcher.segment? unit = some segment := by
  induction units generalizing segments with
  | nil =>
      cases h
      cases hsegment
  | cons unit units ih =>
      rw [List.mapM_cons] at h
      obtain ⟨first, hfirst, hrest⟩ := Option.bind_eq_some_iff.1 h
      obtain ⟨rest, hmapM, hsame⟩ := Option.bind_eq_some_iff.1 hrest
      cases hsame
      rcases List.mem_cons.1 hsegment with rfl | hsegment
      · exact ⟨unit, hfirst⟩
      · exact ih hmapM hsegment

/-- The units of some tokens have segments that are indexable, at least one of them. -/
theorem Lawful.segments (h : searcher.Lawful) {common : CommonTokens} {units : List TokenUnit}
    (hcuts : common.Cuts tokens units) {segments : List Segment}
    (hsegments : units.mapM searcher.segment? = some segments) :
    (∀ segment ∈ segments, segment.Indexable) ∧ (tokens ≠ [] → segments ≠ []) := by
  induction hcuts generalizing segments with
  | nil =>
      cases hsegments
      exact ⟨fun segment hsegment => absurd hsegment List.not_mem_nil, fun hne => absurd rfl hne⟩
  | @cons run later units hrun hlater ih =>
      rw [List.mapM_cons] at hsegments
      obtain ⟨first, hfirst, hrest⟩ := Option.bind_eq_some_iff.1 hsegments
      obtain ⟨rest, hmapM, hsame⟩ := Option.bind_eq_some_iff.1 hrest
      cases hsame
      obtain ⟨hwords, hlength⟩ := segment?_eq_some hfirst
      have hshort : first.length ≤ 3 := by
        rw [hlength]
        exact hrun.length_le
      refine ⟨fun segment hsegment => ?_, fun _ => List.cons_ne_nil _ _⟩
      rcases List.mem_cons.1 hsegment with rfl | hsegment
      · exact ⟨hshort, h _ _ hwords⟩
      · exact (ih hmapM).1 segment hsegment

/-- Looking for the places of a phrase never fails. -/
theorem exists_phrasePostings (searcher : Searcher) (tokens : List String) :
    ∃ places, Searching.value (searcher.phrasePostings tokens) = .ok places := by
  by_cases hne : tokens = []
  · subst hne
    exact ⟨none, rfl⟩
  · obtain ⟨units, -, hplaces⟩ := searcher.exists_units hne
    exact ⟨_, hplaces⟩

/-- A phrase has places, if any, that an index could hold. -/
theorem Lawful.phrasePostings (h : searcher.Lawful) (tokens : List String) :
    ∃ places, Searching.value (searcher.phrasePostings tokens) = .ok places ∧
      ∀ words ∈ places, words.Indexable := by
  by_cases hne : tokens = []
  · subst hne
    refine ⟨none, rfl, fun words hwords => ?_⟩
    cases hwords
  · obtain ⟨units, hcuts, hplaces⟩ := searcher.exists_units hne
    refine ⟨_, hplaces, fun words hwords => ?_⟩
    obtain ⟨segments, hsegments, rfl⟩ := Option.map_eq_some_iff.1 hwords
    obtain ⟨hindexable, hsome⟩ := h.segments hcuts hsegments
    exact Segment.indexable_chain hindexable (hsome hne) searcher

/-- The places of a phrase are addresses of one of its units. -/
theorem Lawful.exists_unit (h : searcher.Lawful) {words : Postings}
    (hwords : Searching.value (searcher.phrasePostings tokens) = .ok (some words)) :
    ∃ unit list, searcher.postings unit = some list ∧
      ∀ y ∈ words.addresses, y ∈ list.addresses := by
  have hne : tokens ≠ [] := by
    rintro rfl
    cases hwords
  obtain ⟨units, hcuts, hplaces⟩ := searcher.exists_units hne
  rw [hplaces, Except.ok.injEq] at hwords
  obtain ⟨segments, hsegments, rfl⟩ := Option.map_eq_some_iff.1 hwords
  obtain ⟨hindexable, hsome⟩ := h.segments hcuts hsegments
  have hlast := List.getLast_mem (hsome hne)
  obtain ⟨unit, hunit⟩ := exists_unit_of_mem hsegments hlast
  exact ⟨unit.text, _, (segment?_eq_some hunit).1, fun y hy =>
    (Segment.ends_of_indexable hindexable (hsome hne) searcher).mem_last _ hy⟩

/-- The segment of a unit has the documents of the unit. -/
theorem mem_segment? {unit : TokenUnit} {document : DocumentId} :
    (∃ segment ∈ searcher.segment? unit, document ∈ segment.words.documents) ↔
      ∃ words ∈ searcher.postings unit.text, document ∈ words.documents := by
  constructor
  · intro hfound
    obtain ⟨segment, hsegment, hdocument⟩ := hfound
    exact ⟨segment.words, (segment?_eq_some hsegment).1, hdocument⟩
  · intro hfound
    obtain ⟨words, hwords, hdocument⟩ := hfound
    cases words with
    | nil => cases hdocument
    | cons word rest => exact ⟨_, segment?_of_some hwords rfl, hdocument⟩

/-- The places of a phrase of one token have the documents of the token. -/
theorem mem_phrasePostings_singleton {token : String} {places : Option Postings}
    (h : Searching.value (searcher.phrasePostings [token]) = .ok places) {document : DocumentId} :
    (∃ words ∈ places, document ∈ words.documents) ↔
      ∃ words ∈ searcher.postings token, document ∈ words.documents := by
  obtain ⟨units, hcuts, hvalue⟩ := searcher.exists_units (List.cons_ne_nil token [])
  rw [hvalue, hcuts.eq_singleton rfl, Except.ok.injEq] at h
  have hplaces : places =
      (searcher.segment? (TokenUnit.ofTokens [token])).map Segment.words := by
    rw [← h, List.mapM_cons, List.mapM_nil]
    cases searcher.segment? (TokenUnit.ofTokens [token]) with
    | none => rfl
    | some segment => rfl
  have htext : (TokenUnit.ofTokens [token]).text = token := joinTokens_singleton token
  have hsegment := @mem_segment? searcher (TokenUnit.ofTokens [token]) document
  rw [htext] at hsegment
  rw [← hsegment, hplaces]
  constructor
  · intro hfound
    obtain ⟨words, hwords, hdocument⟩ := hfound
    obtain ⟨segment, hsome, rfl⟩ := Option.map_eq_some_iff.1 hwords
    exact ⟨segment, hsome, hdocument⟩
  · intro hfound
    obtain ⟨segment, hsome, hdocument⟩ := hfound
    exact ⟨segment.words, Option.map_eq_some_iff.2 ⟨segment, hsome, rfl⟩, hdocument⟩

end Searcher
end Concordance
