import Concordance.Proofs.Fusion.Partition
import Concordance.Proofs.Posting.Counts
import Concordance.Proofs.Searching.Chain
import Concordance.Proofs.Searching.Postings
import Mathlib.Data.List.Nodup

/-!
# Phrase search is exact

A search for a phrase finds the documents in whose indexed tokens it stands
(`Indexer.phrase_search_exact`). Common tokens, batches and the order of the documents make no
difference, for the units of the phrase occur exactly where their tokens stand
(`CommonTokens.occurs_joinTokens`), and the phrase stands where its units are chained
(`Spells.chained_iff`).
-/

namespace Concordance

variable {tokenizer : Tokenizer} {documents : List (DocumentId × String)}

/-! ## Where phrases stand -/

/-- The tokens of a document that are indexed. -/
def Indexed (tokenizer : Tokenizer) (documents : List (DocumentId × String))
    (document : DocumentId) (tokens : List String) : Prop :=
  ∃ content all, (document, content) ∈ documents ∧ tokenizer.tokens content = .ok all ∧
    tokens = all.take Position.limit.toNat

/-- A run of tokens stands at a position of a document. -/
def StandsAt (tokenizer : Tokenizer) (documents : List (DocumentId × String))
    (run : List String) (document : DocumentId) (position : Nat) : Prop :=
  ∃ tokens, Indexed tokenizer documents document tokens ∧ run <+: tokens.drop position

/-- No token that the tokenizer yields has a space in it. -/
def Tokenizer.Spaceless (tokenizer : Tokenizer) : Prop :=
  ∀ text tokens, tokenizer.tokens text = .ok tokens → ∀ token ∈ tokens, Concordance.Spaceless token

/-- The tokenizer yields this token for some text. -/
def Tokenizer.Yields (tokenizer : Tokenizer) (token : String) : Prop :=
  ∃ text tokens, tokenizer.tokens text = .ok tokens ∧ token ∈ tokens

/-- Tokens that the tokenizer yields can be told from their joined text. -/
def Tokenizer.Separable (tokenizer : Tokenizer) : Prop :=
  Separates tokenizer.Yields

/-- Tokens without blanks can be told from their joined text. -/
theorem Tokenizer.Spaceless.separable (h : tokenizer.Spaceless) : tokenizer.Separable :=
  separates_spaceless.mono fun token hyields => by
    obtain ⟨text, tokens, htokens, htoken⟩ := hyields
    exact h text tokens htokens token htoken

/-- Every document is added once, and no document is the last one of all. -/
structure Admissible (documents : List (DocumentId × String)) : Prop where
  distinct : (documents.map (·.1)).Nodup
  below : ∀ document ∈ documents, document.1.toNat < 2 ^ 32 - 1

section Places

variable {document : DocumentId} {position : Nat} {tokens run first second : List String}

/-- A document that is added once has one list of tokens. -/
theorem Indexed.unique (hadmissible : Admissible documents) {other : List String}
    (h : Indexed tokenizer documents document tokens)
    (hother : Indexed tokenizer documents document other) : tokens = other := by
  obtain ⟨content, all, hmem, htokens, rfl⟩ := h
  obtain ⟨content', all', hmem', htokens', rfl⟩ := hother
  have hsame : (document, content) = (document, content') :=
    List.inj_on_of_nodup_map hadmissible.distinct hmem hmem' rfl
  cases hsame
  rw [Except.ok.inj (htokens.symm.trans htokens')]

/-- The tokens of a document are yielded by the tokenizer. -/
theorem Indexed.yields (h : Indexed tokenizer documents document tokens) :
    ∀ token ∈ tokens, tokenizer.Yields token := by
  obtain ⟨content, all, -, htokens, rfl⟩ := h
  intro token htoken
  exact ⟨content, all, htokens, List.mem_of_mem_take htoken⟩

/-- A document has no more tokens than there are positions. -/
theorem Indexed.length_le (h : Indexed tokenizer documents document tokens) :
    tokens.length ≤ 16 * 65535 := by
  obtain ⟨content, all, -, -, rfl⟩ := h
  exact List.length_take_le _ _

/-- A run stands in a document where it stands in the tokens of the document. -/
theorem standsAt_iff (hadmissible : Admissible documents)
    (h : Indexed tokenizer documents document tokens) :
    StandsAt tokenizer documents run document position ↔ run <+: tokens.drop position := by
  constructor
  · intro hfound
    obtain ⟨other, hother, hrun⟩ := hfound
    rwa [h.unique hadmissible hother]
  · intro hrun
    exact ⟨tokens, h, hrun⟩

/-- A run that is a unit is posted where it stands. -/
theorem posted_of_standsAt {common : CommonTokens} (hunit : common.IsUnit run)
    (h : StandsAt tokenizer documents run document position) :
    Posted tokenizer common documents (joinTokens run) document position := by
  obtain ⟨tokens, hindexed, hstands⟩ := h
  obtain ⟨content, all, hmem, hall, rfl⟩ := hindexed
  exact ⟨content, all, hmem, hall, CommonTokens.occurs_of_isPrefix hunit hstands⟩

/-- A run that can be told from its text is posted nowhere else. -/
theorem posted_joinTokens {common : CommonTokens} (hseparable : tokenizer.Separable)
    (hunit : common.IsUnit run) (hrun : ∀ token ∈ run, tokenizer.Yields token) :
    Posted tokenizer common documents (joinTokens run) document position ↔
      StandsAt tokenizer documents run document position := by
  refine ⟨fun h => ?_, posted_of_standsAt hunit⟩
  obtain ⟨content, all, hmem, hall, hoccurs⟩ := h
  have hindexed : Indexed tokenizer documents document (all.take Position.limit.toNat) :=
    ⟨content, all, hmem, hall, rfl⟩
  have hstands :=
    (CommonTokens.occurs_joinTokens hseparable hunit hrun hindexed.yields).1 hoccurs
  exact ⟨_, hindexed, hstands⟩

/-- Two runs stand behind each other where the second stands at the end of the first. -/
theorem append_prefix_drop :
    first ++ second <+: tokens.drop position ↔
      first <+: tokens.drop position ∧ second <+: tokens.drop (position + first.length) := by
  constructor
  · intro h
    obtain ⟨rest, hrest⟩ := h
    rw [List.append_assoc] at hrest
    refine ⟨⟨_, hrest⟩, rest, ?_⟩
    rw [← List.drop_drop, ← hrest, List.drop_left]
  · intro h
    obtain ⟨⟨later, hlater⟩, hsecond⟩ := h
    rw [← List.drop_drop, ← hlater, List.drop_left] at hsecond
    rw [← hlater]
    exact (List.prefix_append_right_inj first).2 hsecond

/-- A run ends inside the tokens in which it stands. -/
theorem add_length_le (hne : run ≠ []) (h : run <+: tokens.drop position) :
    position + run.length ≤ tokens.length := by
  have hpos := List.length_pos_iff.2 hne
  have hle := h.length_le
  rw [List.length_drop] at hle
  omega

end Places

/-! ## Segments of phrases -/

/-- A segment has the places of a short run. -/
structure Segment.Lists (tokenizer : Tokenizer) (documents : List (DocumentId × String))
    (segment : Segment) (run : List String) : Prop where
  ne_nil : run ≠ []
  short : run.length ≤ 3
  length_eq : segment.length = run.length
  packing : IsPacking segment.words (StandsAt tokenizer documents run)

/-- The segments are those of neighbouring runs that make up a phrase. -/
inductive Spells (tokenizer : Tokenizer) (documents : List (DocumentId × String)) :
    List Segment → List String → Prop
  | nil : Spells tokenizer documents [] []
  | cons {segment : Segment} {run : List String} {segments : List Segment} {later : List String}
      (hrun : segment.Lists tokenizer documents run)
      (hlater : Spells tokenizer documents segments later) :
      Spells tokenizer documents (segment :: segments) (run ++ later)

namespace Spells

variable {segments first second : List Segment} {segment : Segment} {phrase : List String}

/-- The segments of a phrase have as many tokens as the phrase. -/
theorem span_eq (h : Spells tokenizer documents segments phrase) :
    Segment.span segments = phrase.length := by
  induction h with
  | nil => rfl
  | cons hrun hlater ih => rw [Segment.span_cons, List.length_append, hrun.length_eq, ih]

/-- Each segment of a phrase has the places of a run. -/
theorem lists_of_mem (h : Spells tokenizer documents segments phrase)
    (hsegment : segment ∈ segments) : ∃ run, segment.Lists tokenizer documents run := by
  induction h with
  | nil => cases hsegment
  | cons hrun hlater ih =>
      rcases List.mem_cons.1 hsegment with rfl | hsegment
      · exact ⟨_, hrun⟩
      · exact ih hsegment

/-- Parts of the segments spell parts of the phrase. -/
theorem split (h : Spells tokenizer documents (first ++ second) phrase) :
    ∃ front back, phrase = front ++ back ∧ Spells tokenizer documents first front ∧
      Spells tokenizer documents second back := by
  induction first generalizing phrase with
  | nil => exact ⟨[], phrase, rfl, Spells.nil, h⟩
  | cons segment rest ih =>
      rw [List.cons_append] at h
      cases h with
      | cons hrun hlater =>
          obtain ⟨front, back, rfl, hfirst, hsecond⟩ := ih hlater
          exact ⟨_, back, (List.append_assoc _ _ _).symm, Spells.cons hrun hfirst, hsecond⟩

/-- In the tokens of a document, a phrase stands where its segments are chained. -/
theorem chained_iff (h : Spells tokenizer documents segments phrase)
    (hadmissible : Admissible documents) {document : DocumentId} {tokens : List String}
    (hindexed : Indexed tokenizer documents document tokens) {position : Nat}
    (hposition : position ≤ tokens.length) :
    Chained segments (address document position) ↔ phrase <+: tokens.drop position := by
  -- the position moves on by one run with each segment
  induction h generalizing position with
  | nil => simp
  | @cons segment run segments later hrun hlater ih =>
      have hlimit := hindexed.length_le
      have hhere : address document position ∈ segment.words.addresses ↔
          run <+: tokens.drop position := by
        rw [hrun.packing.mem_iff, ← standsAt_iff hadmissible hindexed]
        constructor
        · intro hgiven
          obtain ⟨other, place, hstands, hsame⟩ := hgiven
          obtain ⟨found, hfound, hprefix⟩ := id hstands
          have hinside := add_length_le hrun.ne_nil hprefix
          have hfew := hfound.length_le
          obtain ⟨rfl, rfl⟩ := (address_inj (by omega) (by omega)).1 hsame
          exact hstands
        · intro hstands
          exact ⟨document, position, hstands, rfl⟩
      have hnext : address document position + segment.length =
          address document (position + run.length) := by
        rw [hrun.length_eq, address, address, Nat.add_assoc]
      rw [chained_cons, hhere, hnext, append_prefix_drop]
      refine and_congr_right fun hprefix => ?_
      exact ih (add_length_le hrun.ne_nil hprefix)

/-- Segments are chained nowhere but in documents. -/
theorem exists_of_chained (h : Spells tokenizer documents segments phrase)
    (hadmissible : Admissible documents) (hne : segments ≠ []) {x : Nat}
    (hchained : Chained segments x) :
    ∃ document position tokens, Indexed tokenizer documents document tokens ∧
      x = address document position ∧ phrase <+: tokens.drop position := by
  obtain ⟨segment, rest, rfl⟩ := List.exists_cons_of_ne_nil hne
  cases id h with
  | cons hrun hlater =>
      obtain ⟨document, position, ⟨tokens, hindexed, hprefix⟩, rfl⟩ :=
        (hrun.packing.mem_iff x).1 hchained.1
      have hinside := add_length_le hrun.ne_nil hprefix
      exact ⟨document, position, tokens, hindexed, rfl,
        (h.chained_iff hadmissible hindexed (by omega)).1 hchained⟩

end Spells

/-- A segment can be moved as far as positions reach, and by one unit more. -/
theorem Segment.Lists.movable {segment : Segment} {run : List String}
    (h : segment.Lists tokenizer documents run) (hadmissible : Admissible documents) {length : Nat}
    (hlength : length ≤ 16 * 65535 + 3) : Movable length segment.words := by
  have hlt : length < 2 ^ 32 := by omega
  have hnumber : length.toUInt32.toNat = length := Nat.mod_eq_of_lt hlt
  refine ⟨hlt, .of_addresses h.packing.canonical.full fun x hx => ?_⟩
  obtain ⟨document, position, ⟨tokens, hindexed, hprefix⟩, rfl⟩ := (h.packing.mem_iff x).1 hx
  have hinside := add_length_le h.ne_nil hprefix
  have hpos := List.length_pos_iff.2 h.ne_nil
  have hfew := hindexed.length_le
  obtain ⟨content, all, hmem, -, -⟩ := hindexed
  have hbelow : document.toNat < 2 ^ 32 - 1 := hadmissible.below _ hmem
  rw [hnumber, address]
  omega

namespace Spells

variable {segments : List Segment} {phrase : List String}

/-- The segments of a phrase leave room for each other in documents that may be added. -/
theorem roomy (h : Spells tokenizer documents segments phrase)
    (hadmissible : Admissible documents) : Roomy segments := by
  constructor
  · intro segment hsegment
    obtain ⟨run, hrun⟩ := h.lists_of_mem (List.dropLast_subset _ hsegment)
    have hshort := hrun.short
    rw [hrun.length_eq]
    exact hrun.movable hadmissible (by omega)
  · rintro front left covered last back rfl ⟨x, hchained⟩
    obtain ⟨_, _, _, _, hrest⟩ := h.split
    cases hrest with
    | cons hleft hrest =>
        rw [List.append_cons covered last back] at hrest
        -- the range occurs in a document, so it is no longer than the document
        obtain ⟨range, _, _, hrange, -⟩ := hrest.split
        obtain ⟨document, position, tokens, hindexed, -, hprefix⟩ :=
          hrange.exists_of_chained hadmissible (by simp) hchained
        have hfew := hindexed.length_le
        have hle := hprefix.length_le
        rw [List.length_drop, ← hrange.span_eq, Segment.span_append] at hle
        have hshort := hleft.short
        have hlength := hleft.length_eq
        refine hleft.movable hadmissible ?_
        rw [Segment.span_cons]
        omega

/-- Chaining the segments of a phrase finds the ends of all of them. -/
theorem ends_chain (h : Spells tokenizer documents segments phrase)
    (hadmissible : Admissible documents) (hne : segments ≠ []) (searcher : Searcher) :
    Ends segments (searcher.chain segments).value := by
  refine Searcher.chain_ends_of_canonical (fun segment hsegment => ?_) (h.roomy hadmissible) hne
  obtain ⟨run, hrun⟩ := h.lists_of_mem hsegment
  exact hrun.packing.canonical

/-- Chaining the segments of a phrase leaves the places of the phrase, told by the first token of
its last unit. -/
theorem packing_chain (h : Spells tokenizer documents segments phrase)
    (hadmissible : Admissible documents) (hphrase : phrase ≠ []) (searcher : Searcher) :
    ∃ offset < phrase.length, IsPacking (searcher.chain segments).value fun document place =>
      ∃ position, StandsAt tokenizer documents phrase document position ∧
        place = position + offset := by
  have hne : segments ≠ [] := by
    rintro rfl
    cases h
    exact hphrase rfl
  have hends := h.ends_chain hadmissible hne searcher
  refine ⟨Segment.span segments.dropLast, ?_, hends.canonical, fun y => ?_⟩
  -- the last segment is not empty, so its start lies inside the phrase
  · obtain ⟨run, hlast⟩ := h.lists_of_mem (List.getLast_mem hne)
    have hpos := List.length_pos_iff.2 hlast.ne_nil
    have hspan := h.span_eq
    rw [← List.dropLast_concat_getLast hne, Segment.span_append, Segment.span_cons,
      hlast.length_eq] at hspan
    omega
  · rw [hends.mem_iff]
    constructor
    · intro hfound
      obtain ⟨x, hchained, rfl⟩ := hfound
      obtain ⟨document, position, tokens, hindexed, rfl, hprefix⟩ :=
        h.exists_of_chained hadmissible hne hchained
      exact ⟨document, position + _, ⟨position, ⟨tokens, hindexed, hprefix⟩, rfl⟩,
        Nat.add_assoc _ _ _⟩
    · intro hfound
      obtain ⟨document, place, ⟨position, ⟨tokens, hindexed, hprefix⟩, rfl⟩, rfl⟩ := hfound
      have hinside := add_length_le hphrase hprefix
      refine ⟨address document position, ?_, (Nat.add_assoc _ _ _).symm⟩
      exact (h.chained_iff hadmissible hindexed (by omega)).2 hprefix

end Spells

/-! ## Segments of units -/

/-- A packing depends on the positions only. -/
theorem IsPacking.congr {words : Postings} {posted other : DocumentId → Nat → Prop}
    (h : IsPacking words posted)
    (hsame : ∀ document position, posted document position ↔ other document position) :
    IsPacking words other :=
  ⟨h.canonical, fun x => by simp only [h.mem_iff, hsame]⟩

namespace Searcher

variable {searcher : Searcher} {common : CommonTokens} {run phrase : List String}

/-- A unit with a list of words makes a segment. -/
theorem segment?_of_some {unit : TokenUnit} {words : Postings}
    (h : searcher.postings unit.text = some words) (hne : words.isEmpty = false) :
    searcher.segment? unit = some ⟨words, unit.length⟩ := by
  simp [segment?, h, hne]

/-- A unit that is not in the index makes no segment. -/
theorem segment?_of_none {unit : TokenUnit} (h : searcher.postings unit.text = none) :
    searcher.segment? unit = none := by
  simp [segment?, h]

/-- The segment of a unit has the places of its run. Without a segment the run stands nowhere. -/
theorem segment?_spec (h : searcher.Packs (Posted tokenizer common documents))
    (hseparable : tokenizer.Separable) (hunit : common.IsUnit run)
    (hrun : ∀ token ∈ run, tokenizer.Yields token) :
    (∀ segment, searcher.segment? (TokenUnit.ofTokens run) = some segment →
      segment.Lists tokenizer documents run) ∧
    (searcher.segment? (TokenUnit.ofTokens run) = none → ∀ document position,
      ¬ StandsAt tokenizer documents run document position) := by
  have hposted : ∀ document position,
      Posted tokenizer common documents (joinTokens run) document position ↔
        StandsAt tokenizer documents run document position :=
    fun document position => posted_joinTokens hseparable hunit hrun
  by_cases hsome : ∃ document position,
      Posted tokenizer common documents (joinTokens run) document position
  · obtain ⟨words, hwords, hunique⟩ := h.packing (joinTokens run) hsome
    have hpacking := ((hunique words).2 rfl).congr hposted
    -- an empty list is taken for a missing one, but there is a place in this one
    have hne : words.isEmpty = false := by
      obtain ⟨document, position, hat⟩ := hsome
      have hmem := (hpacking.mem_iff _).2 ⟨document, position, (hposted _ _).1 hat, rfl⟩
      cases words with
      | nil => cases hmem
      | cons word rest => rfl
    have hsegment : searcher.segment? (TokenUnit.ofTokens run) = some ⟨words, run.length⟩ :=
      segment?_of_some hwords hne
    rw [hsegment]
    constructor
    · intro segment heq
      cases heq
      exact ⟨hunit.1, hunit.length_le, rfl, hpacking⟩
    · intro hnone
      cases hnone
  · have hnowhere : ∀ document position,
        ¬ Posted tokenizer common documents (joinTokens run) document position :=
      fun document position hat => hsome ⟨document, position, hat⟩
    have hsegment : searcher.segment? (TokenUnit.ofTokens run) = none :=
      segment?_of_none (h.missing _ hnowhere)
    rw [hsegment]
    constructor
    · intro segment heq
      cases heq
    · intro _ document position hat
      exact hnowhere document position ((hposted _ _).2 hat)

/-- The segments of the units of a phrase spell it. If one of them is missing, the phrase stands
nowhere. -/
theorem mapM_segment?_spec (h : searcher.Packs (Posted tokenizer common documents))
    (hseparable : tokenizer.Separable) {units : List TokenUnit} (hcuts : common.Cuts phrase units)
    (hphrase : ∀ token ∈ phrase, tokenizer.Yields token) :
    (∀ segments, units.mapM searcher.segment? = some segments →
      Spells tokenizer documents segments phrase) ∧
    (units.mapM searcher.segment? = none → ∀ document position,
      ¬ StandsAt tokenizer documents phrase document position) := by
  induction hcuts with
  | nil =>
      constructor
      · intro segments heq
        cases heq
        exact Spells.nil
      · intro hnone
        cases hnone
  | @cons run later units hrun hlater ih =>
      obtain ⟨hsegments, hnone⟩ := ih fun token htoken =>
        hphrase token (List.mem_append_right _ htoken)
      obtain ⟨hsegment, hmissing⟩ := segment?_spec h hseparable hrun fun token htoken =>
        hphrase token (List.mem_append_left _ htoken)
      rw [List.mapM_cons]
      cases hfirst : searcher.segment? (TokenUnit.ofTokens run) with
      | none =>
          constructor
          · intro segments heq
            cases heq
          · intro _ document position hfound
            obtain ⟨tokens, hindexed, hprefix⟩ := hfound
            exact hmissing hfirst document position
              ⟨tokens, hindexed, (append_prefix_drop.1 hprefix).1⟩
      | some segment =>
          cases hrest : units.mapM searcher.segment? with
          | none =>
              constructor
              · intro segments heq
                cases heq
              · intro _ document position hfound
                obtain ⟨tokens, hindexed, hprefix⟩ := hfound
                exact hnone hrest document _ ⟨tokens, hindexed, (append_prefix_drop.1 hprefix).2⟩
          | some segments =>
              constructor
              · intro all heq
                cases heq
                exact Spells.cons (hsegment segment hfirst) (hsegments segments hrest)
              · intro heq
                cases heq

end Searcher

/-! ## What a search yields -/

namespace Searching

variable {α β : Type}

/-- What a search yields, without the steps that were counted. -/
def value (search : Searching α) : Except Failure α :=
  Counted.value search.run

/-- The value of a search that is over is its result. -/
@[simp] theorem value_pure (result : α) : value (pure result) = .ok result := rfl

/-- The value of counted steps is theirs. -/
@[simp] theorem value_lift (counted : Counted α) :
    value (ExceptT.lift counted) = .ok counted.value :=
  rfl

/-- The value of an attempt is its outcome. -/
@[simp] theorem value_liftM (result : Except Failure α) :
    value (liftM result : Searching α) = result := rfl

/-- A search goes on with the value of its first step. -/
@[simp] theorem value_bind (first : Searching α) (next : α → Searching β) :
    value (first >>= next) = value first >>= fun result => value (next result) := by
  show Counted.value ((first >>= next).run) = _
  rw [ExceptT.run_bind, Counted.value_bind]
  show _ = Except.bind (Counted.value first.run) _
  cases Counted.value first.run with
  | ok result => rfl
  | error failure => rfl

/-- If the first step succeeds, the search goes on with its result. -/
theorem value_bind_of_ok {first : Searching α} {next : α → Searching β} {result : α}
    (h : value first = .ok result) : value (first >>= next) = value (next result) := by
  rw [value_bind, h]
  rfl

/-- If the first step fails, so does the search. -/
theorem value_bind_of_error {first : Searching α} {next : α → Searching β} {failure : Failure}
    (h : value first = .error failure) : value (first >>= next) = .error failure := by
  rw [value_bind, h]
  rfl

/-- If an attempt succeeds, the search goes on with its result. -/
theorem value_liftM_bind_of_ok {first : Except Failure α} {next : α → Searching β} {result : α}
    (h : first = .ok result) : value (liftM first >>= next) = value (next result) :=
  value_bind_of_ok ((value_liftM first).trans h)

/-- If an attempt fails, so does the search. -/
theorem value_liftM_bind_of_error {first : Except Failure α} {next : α → Searching β}
    {failure : Failure} (h : first = .error failure) :
    value (liftM first >>= next) = .error failure :=
  value_bind_of_error ((value_liftM first).trans h)

end Searching

namespace Searcher

variable {searcher : Searcher} {tokens : List String}

/-- A phrase is cut into units, and if all of these have segments, it is searched by chaining
them. -/
theorem exists_units (searcher : Searcher) (hne : tokens ≠ []) :
    ∃ units, searcher.common.Cuts tokens units ∧
      Searching.value (searcher.phrasePostings tokens) =
        .ok ((units.mapM searcher.segment?).map fun segments =>
          (searcher.chain segments).value) := by
  obtain ⟨units, hunits, hcuts⟩ := @CommonTokens.minimize_cuts searcher.common
    (fun unit => .ok (searcher.wordCount unit)) (fun unit => ⟨_, rfl⟩) tokens
  have hnonempty : ¬ tokens.isEmpty = true := fun hempty => hne (List.isEmpty_iff.1 hempty)
  refine ⟨units, hcuts, ?_⟩
  unfold phrasePostings
  rw [if_neg hnonempty]
  simp only [Searching.value_bind, Searching.value_lift, Searching.value_liftM, hunits]
  show Searching.value _ = _
  cases units.mapM searcher.segment? with
  | none => rfl
  | some segments => rfl

/-- A search yields the documents of the places of the phrase. -/
theorem value_search {text : String}
    (htokens : searcher.settings.tokenizer.tokens text = .ok tokens) {found : Option Postings}
    (hfound : Searching.value (searcher.phrasePostings tokens) = .ok found) :
    Searching.value (searcher.search text) = .ok ((found.map Postings.documents).getD []) := by
  unfold search
  simp only [Searching.value_bind, Searching.value_lift, Searching.value_liftM, htokens]
  show (do let found ← Searching.value (searcher.phrasePostings tokens); _) = _
  rw [hfound]
  cases found with
  | none => rfl
  | some words => rfl

end Searcher

/-! ## Exact answers -/

/-- The positions at which a phrase starts. -/
def starts (phrase tokens : List String) : List Nat :=
  (List.range tokens.length).filter fun position => phrase.isPrefixOf (tokens.drop position)

/-- A phrase starts where its tokens stand. -/
theorem mem_starts {phrase tokens : List String} (hphrase : phrase ≠ []) {position : Nat} :
    position ∈ starts phrase tokens ↔ phrase <+: tokens.drop position := by
  rw [starts, List.mem_filter, List.mem_range, List.isPrefixOf_iff_prefix]
  constructor
  · intro h
    exact h.2
  · intro h
    have hinside := add_length_le hphrase h
    have hpos := List.length_pos_iff.2 hphrase
    exact ⟨by omega, h⟩

/-- A phrase is among some tokens if it stands somewhere in them. -/
theorem infix_iff_exists_prefix {phrase tokens : List String} :
    phrase <:+: tokens ↔ ∃ position, phrase <+: tokens.drop position := by
  constructor
  · intro h
    obtain ⟨front, back, rfl⟩ := h
    refine ⟨front.length, back, ?_⟩
    rw [List.append_assoc, List.drop_left]
  · intro h
    obtain ⟨position, hprefix⟩ := h
    exact hprefix.isInfix.trans (List.drop_suffix position tokens).isInfix

/-- A search for a text yields, in ascending order, the documents in whose indexed tokens the
phrase stands. The list of its places, if there is one, has a bit for each start of the phrase in
a document. -/
structure Searcher.FindsPhrase (searcher : Searcher) (tokenizer : Tokenizer)
    (documents : List (DocumentId × String)) (text : String) (phrase : List String)
    (found : List DocumentId) : Prop where
  result : Searching.value (searcher.search text) = .ok found
  ascending : found.Pairwise (· < ·)
  mem_iff : ∀ document, document ∈ found ↔
    ∃ tokens, Indexed tokenizer documents document tokens ∧ phrase <:+: tokens
  counted : ∃ places, Searching.value (searcher.phrasePostings phrase) = .ok places ∧
    ∀ words ∈ places, ∀ document tokens, Indexed tokenizer documents document tokens →
      words.setBits document = (starts phrase tokens).length

section Answers

variable {phrase : List String} {words : Postings} {offset : Nat}

/-- The documents of the places of a phrase are those in which it stands. -/
theorem mem_documents_of_packing (hphrase : phrase ≠ []) (hoffset : offset < phrase.length)
    (h : IsPacking words fun document place =>
      ∃ position, StandsAt tokenizer documents phrase document position ∧
        place = position + offset) (document : DocumentId) :
    document ∈ words.documents ↔
      ∃ tokens, Indexed tokenizer documents document tokens ∧ phrase <:+: tokens := by
  have hlimit : ∀ document place, (∃ position,
      StandsAt tokenizer documents phrase document position ∧ place = position + offset) →
      place < 2 ^ 20 := by
    intro document place hfound
    obtain ⟨position, ⟨tokens, hindexed, hprefix⟩, rfl⟩ := hfound
    have hinside := add_length_le hphrase hprefix
    have hfew := hindexed.length_le
    omega
  rw [(Indexer.exists_distinct h hlimit).2]
  constructor
  · intro hfound
    obtain ⟨place, position, ⟨tokens, hindexed, hprefix⟩, -⟩ := hfound
    exact ⟨tokens, hindexed, infix_iff_exists_prefix.2 ⟨position, hprefix⟩⟩
  · intro hfound
    obtain ⟨tokens, hindexed, hinfix⟩ := hfound
    obtain ⟨position, hprefix⟩ := infix_iff_exists_prefix.1 hinfix
    exact ⟨position + offset, position, ⟨tokens, hindexed, hprefix⟩, rfl⟩

/-- The places of a phrase in a document are as many as its starts. -/
theorem setBits_of_packing (hadmissible : Admissible documents) (hphrase : phrase ≠ [])
    (hoffset : offset < phrase.length)
    (h : IsPacking words fun document place =>
      ∃ position, StandsAt tokenizer documents phrase document position ∧
        place = position + offset)
    {document : DocumentId} {tokens : List String}
    (hindexed : Indexed tokenizer documents document tokens) :
    words.setBits document = (starts phrase tokens).length := by
  have hfew := hindexed.length_le
  have hinside : ∀ position ∈ starts phrase tokens, position + offset < 2 ^ 20 := by
    intro position hposition
    have hle := add_length_le hphrase ((mem_starts hphrase).1 hposition)
    omega
  have hnodup : ((starts phrase tokens).map (· + offset)).Nodup := by
    refine List.Nodup.map (fun p q heq => Nat.add_right_cancel heq) ?_
    exact List.nodup_range.filter _
  rw [Postings.setBits_eq_length h.canonical.ascending hnodup, List.length_map]
  · intro place hplace
    obtain ⟨position, hposition, rfl⟩ := List.mem_map.1 hplace
    exact hinside position hposition
  · intro place hplace
    rw [h.mem_iff, List.mem_map]
    constructor
    · intro hgiven
      obtain ⟨other, _, ⟨position, hstands, rfl⟩, hsame⟩ := hgiven
      obtain ⟨found, hfound, hprefix⟩ := id hstands
      have hle := add_length_le hphrase hprefix
      have hlimit := hfound.length_le
      obtain ⟨rfl, rfl⟩ := (address_inj hplace (by omega)).1 hsame
      exact ⟨position, (mem_starts hphrase).2 ((standsAt_iff hadmissible hindexed).1 hstands), rfl⟩
    · intro hgiven
      obtain ⟨position, hposition, rfl⟩ := hgiven
      have hprefix := (mem_starts hphrase).1 hposition
      exact ⟨document, _, ⟨position, ⟨tokens, hindexed, hprefix⟩, rfl⟩, rfl⟩

end Answers

/-- A searcher that finds the packings of all units finds phrases, if their tokens can be told from
the texts of the units. -/
theorem Searcher.Packs.findsPhrase_of_separable {searcher : Searcher}
    (h : searcher.Packs (Posted tokenizer searcher.common documents))
    (hseparable : tokenizer.Separable) (hadmissible : Admissible documents)
    (htokenizer : searcher.settings.tokenizer = tokenizer) {text : String} {phrase : List String}
    (htext : tokenizer.tokens text = .ok phrase) (hphrase : phrase ≠ []) :
    ∃ found, searcher.FindsPhrase tokenizer documents text phrase found := by
  obtain ⟨units, hcuts, hplaces⟩ := searcher.exists_units hphrase
  obtain ⟨hspells, hnowhere⟩ :=
    Searcher.mapM_segment?_spec h hseparable hcuts fun token htoken =>
      ⟨text, phrase, htext, htoken⟩
  have hresult := Searcher.value_search (htokenizer ▸ htext) hplaces
  cases hsegments : units.mapM searcher.segment? with
  | none =>
      rw [hsegments] at hplaces hresult
      refine ⟨[], hresult, List.Pairwise.nil, fun document => ⟨fun hmem => ?_, ?_⟩,
        none, hplaces, fun words hwords => ?_⟩
      · cases hmem
      · intro hfound
        obtain ⟨tokens, hindexed, hinfix⟩ := hfound
        obtain ⟨position, hprefix⟩ := infix_iff_exists_prefix.1 hinfix
        exact absurd ⟨tokens, hindexed, hprefix⟩ (hnowhere hsegments document position)
      · cases hwords
  | some segments =>
      rw [hsegments] at hplaces hresult
      obtain ⟨offset, hoffset, hpacking⟩ :=
        (hspells segments hsegments).packing_chain hadmissible hphrase searcher
      refine ⟨(searcher.chain segments).value.documents, hresult,
        hpacking.canonical.ascending.pairwise_documents,
        mem_documents_of_packing hphrase hoffset hpacking, _, hplaces, ?_⟩
      intro words hwords document tokens hindexed
      cases hwords
      exact setBits_of_packing hadmissible hphrase hoffset hpacking hindexed

/-- Phrases of tokens without spaces are found. -/
theorem Searcher.Packs.findsPhrase {searcher : Searcher}
    (h : searcher.Packs (Posted tokenizer searcher.common documents))
    (hspaceless : tokenizer.Spaceless) (hadmissible : Admissible documents)
    (htokenizer : searcher.settings.tokenizer = tokenizer) {text : String} {phrase : List String}
    (htext : tokenizer.tokens text = .ok phrase) (hphrase : phrase ≠ []) :
    ∃ found, searcher.FindsPhrase tokenizer documents text phrase found :=
  h.findsPhrase_of_separable hspaceless.separable hadmissible htokenizer htext hphrase

namespace Indexer

/-- The order in which documents are added makes no difference to what is posted. -/
theorem posted_perm {common : CommonTokens} {added : List (DocumentId × String)}
    (hperm : added.Perm documents) :
    Posted tokenizer common added = Posted tokenizer common documents := by
  funext unit document position
  simp only [Posted, hperm.mem_iff]

/-- **Phrase search is exact.** A search finds the documents in whose indexed tokens the phrase
stands, and a place for each of its starts. It finds the same in every index of these documents,
whatever the size of its batches, its common tokens and the order of the documents. -/
theorem phrase_search_exact (hspaceless : tokenizer.Spaceless) (hadmissible : Admissible documents)
    {text : String} {phrase : List String} (htext : tokenizer.tokens text = .ok phrase)
    (hphrase : phrase ≠ []) :
    ∃ found, ∀ path settings added disk workspace,
      build path settings added disk = .ok workspace → Sized settings added workspace →
      settings.tokenizer = tokenizer → added.Perm documents →
      ∀ searchPath searchSettings, searchSettings.tokenizer = tokenizer →
        ∃ searcher, Searcher.ofDisk workspace.disk searchPath searchSettings = .ok searcher ∧
          searcher.FindsPhrase tokenizer documents text phrase found := by
  classical
  obtain ⟨found, hascending, hmem⟩ := Postings.exists_ascending
    ((documents.map (·.1)).filter fun document => decide (∃ tokens,
      Indexed tokenizer documents document tokens ∧ phrase <:+: tokens))
  refine ⟨found, ?_⟩
  intro path settings added disk workspace hbuild hsized htokenizer hperm searchPath searchSettings
    hsearch
  subst htokenizer
  obtain ⟨common, hcommon, -, hcommitted⟩ := committed_of_sized hbuild hsized
  obtain ⟨searcher, hopen, hsettings, rfl, hfound⟩ := hcommitted.searcher
    (hsized.commonTokens common hcommon) hsized.postings searchPath searchSettings
  have hpacks := packs_of_gathered fun unit => (hfound unit).1
  rw [posted_perm hperm] at hpacks
  obtain ⟨other, hfinds⟩ := hpacks.findsPhrase hspaceless hadmissible
    (by rw [hsettings, hsearch]) htext hphrase
  have hsame : other = found := by
    refine Ordered.eq_of_pairwise (fun _ _ => UInt32.lt_asymm) hfinds.ascending hascending ?_
    intro document
    rw [hfinds.mem_iff, hmem, List.mem_filter, decide_eq_true_eq]
    refine ⟨fun h => ⟨?_, h⟩, fun h => h.2⟩
    obtain ⟨tokens, ⟨content, all, hadded, -⟩, -⟩ := h
    exact List.mem_map.2 ⟨(document, content), hadded, rfl⟩
  exact ⟨searcher, hopen, hsame ▸ hfinds⟩

/-- Two batches and one batch lead to the same answer. -/
theorem phrase_search_exact_two_batches :
    ∃ found, 0 ∈ found ∧ 1 ∈ found ∧ ∀ batchSize ∈ [1, 2], ∃ workspace searcher,
      build "index" (letterSettings batchSize) letterDocuments {} = .ok workspace ∧
      Searcher.ofDisk workspace.disk "index" { tokenizer := letters } = .ok searcher ∧
      searcher.FindsPhrase letters letterDocuments "ab" ["a", "b"] found := by
  have hspaceless : letters.Spaceless := by
    intro text tokens htokens token htoken
    cases htokens
    obtain ⟨character, hcharacter, rfl⟩ := List.mem_map.1 htoken
    have hne := of_decide_eq_true (List.mem_filter.1 hcharacter).2
    rw [Spaceless, String.toList_singleton, List.mem_singleton]
    exact fun heq => hne heq.symm
  have hadmissible : Admissible letterDocuments := ⟨by decide, by decide⟩
  obtain ⟨found, hfound⟩ := phrase_search_exact hspaceless hadmissible
    (show letters.tokens "ab" = .ok ["a", "b"] by decide +kernel) (List.cons_ne_nil _ _)
  have hruns : ∀ batchSize ∈ [1, 2], ∃ workspace searcher,
      build "index" (letterSettings batchSize) letterDocuments {} = .ok workspace ∧
      Searcher.ofDisk workspace.disk "index" { tokenizer := letters } = .ok searcher ∧
      searcher.FindsPhrase letters letterDocuments "ab" ["a", "b"] found := by
    intro batchSize hsize
    obtain ⟨workspace, hbuild, hsized⟩ := exists_letterWorkspace batchSize hsize
    obtain ⟨searcher, hopen, hfinds⟩ := hfound "index" (letterSettings batchSize) letterDocuments {}
      workspace hbuild hsized rfl (List.Perm.refl _) "index" { tokenizer := letters } rfl
    exact ⟨workspace, searcher, hbuild, hopen, hfinds⟩
  obtain ⟨-, searcher, -, -, hfinds⟩ := hruns 1 (by decide)
  refine ⟨found, (hfinds.mem_iff 0).2 ⟨["c", "a", "b"], ⟨"cab", ["c", "a", "b"], ?_, ?_, ?_⟩, ?_⟩,
    (hfinds.mem_iff 1).2 ⟨["a", "b", "a", "b"],
      ⟨"ab ab", ["a", "b", "a", "b"], ?_, ?_, ?_⟩, ?_⟩, hruns⟩
  all_goals decide +kernel

end Indexer

end Concordance
