import Concordance.Proofs.Fusion.CommonTokens
import Concordance.Proofs.Indexing.Commit
import Concordance.Proofs.Posting.Documents
import Concordance.Proofs.Storage.TokenDirectory
import Concordance.Searching.Searcher

/-!
# What a searcher finds

A searcher of a committed index finds, for each unit, the canonical list of the places where the
unit stands in the documents added (`Indexer.postings_exact`). The list does not depend on how
the documents were divided into batches, and with common tokens that are known beforehand neither
do the files.
-/

namespace Concordance

/-! ## Opening a committed index -/

variable {disk : Disk} {common : CommonTokens} {table : Table Postings}

/-- An entry that was stored and comes back still leads to its list. -/
theorem PostingsFile.read_stored {entry : TokenEntry} {bytes : Bytes} {words : Postings}
    (h : entry.Locates bytes words) (hsize : bytes.length < 2 ^ 63) :
    read ⟨bytes⟩ entry.stored = words ∧
      entry.stored.documents = .ofNat words.documentCount.toUInt32.toInt32.toInt.toNat := by
  rw [TokenEntry.stored_eq (Nat.lt_of_le_of_lt h.inside hsize)]
  constructor
  · show read ⟨bytes⟩ entry = words
    exact read_of_locates h
  · rw [h.documents]

/-- A searcher of a committed index finds the normalized lists that were merged. -/
theorem Committed.searcher
    (h : Committed common (MergeOutcome.addAll {} table.entries) disk)
    (hcommon : common.size < 2 ^ 31)
    (hsize : ∀ bytes, disk.file? IndexFile.postings.name = some bytes → bytes.length < 2 ^ 63)
    (path : String) (settings : SearchSettings) :
    ∃ searcher, Searcher.ofDisk disk path settings = .ok searcher ∧
      searcher.settings = settings ∧ searcher.common = common ∧
      ∀ unit, searcher.postings unit = (table.find? unit).map Postings.normalize ∧
        ∀ words, table.find? unit = some words → ∃ entry,
          searcher.directory.find? unit = some entry ∧
          entry.documents =
            .ofNat words.normalize.documentCount.toUInt32.toInt32.toInt.toNat := by
  obtain ⟨hpresent, hpostings, ⟨directoryBytes, hdirectory, hdirectoryFile⟩,
    ⟨commonBytes, hcommonBytes, hcommonFile⟩⟩ := h
  obtain ⟨directory, hread, hfind⟩ := TokenDirectory.ofFile_toBytes hdirectory
  have hcommonRead := CommonTokens.ofFile_toBytes hcommon hcommonBytes
  have hstores := MergedPostings.stores_addAll table
  refine ⟨{
    settings
    directory
    postingsFile := ⟨(MergeOutcome.addAll {} table.entries).writer.toBytes⟩
    lengths := DocumentLengths.ofFile (disk.file? IndexFile.lengths.name)
    documents := DocumentStore.ofFiles (disk.file? IndexFile.contents.name)
      (disk.file? IndexFile.places.name)
    statistics := IndexStatistics.ofFile (disk.file? IndexFile.statistics.name)
    common }, ?_, rfl, rfl, fun unit => ?_⟩
  · unfold Searcher.ofDisk
    rw [if_pos hpresent]
    simp only [hdirectoryFile, hread, hcommonFile, hcommonRead, hpostings, bind, Except.bind, pure,
      Except.pure]
    rfl
  · show (directory.find? unit).map (PostingsFile.read _) = _ ∧ _
    rw [hfind unit]
    cases hunit : table.find? unit with
    | none =>
        rw [hstores.missing unit hunit]
        refine ⟨rfl, ?_⟩
        intro words hwords
        cases hwords
    | some words =>
        obtain ⟨entry, hentry, hlocates⟩ := hstores.found unit words hunit
        obtain ⟨hlist, hcount⟩ := PostingsFile.read_stored hlocates (hsize _ hpostings)
        rw [hentry]
        constructor
        · exact congrArg some hlist
        · intro words' hwords
          cases hwords
          exact ⟨entry.stored, rfl, hcount⟩

/-- A searcher has the statistics of the file that it was opened with. -/
theorem Searcher.statistics_of_ofDisk {path : String} {settings : SearchSettings}
    {searcher : Searcher} (h : Searcher.ofDisk disk path settings = .ok searcher) :
    searcher.statistics = IndexStatistics.ofFile (disk.file? IndexFile.statistics.name) := by
  unfold Searcher.ofDisk at h
  split at h
  · obtain ⟨directory, -, hrest⟩ := Success.eq_ok_of_bind h
    obtain ⟨common, -, hsearcher⟩ := Success.eq_ok_of_bind hrest
    cases hsearcher
    rfl
  · cases h

/-! ## Where units stand -/

/-- A unit stands at a position of a document that was added. -/
def Posted (tokenizer : Tokenizer) (common : CommonTokens)
    (documents : List (DocumentId × String)) (unit : String) (document : DocumentId)
    (position : Nat) : Prop :=
  ∃ content tokens, (document, content) ∈ documents ∧ tokenizer.tokens content = .ok tokens ∧
    common.Occurs (tokens.take Position.limit.toNat) unit position

/-- A list is the packing of positions of documents: its keys ascend strictly, none of its words is
empty, and its set bits stand for these positions. -/
structure IsPacking (words : Postings) (posted : DocumentId → Nat → Prop) : Prop where
  canonical : words.Canonical
  mem_iff : ∀ x, x ∈ words.addresses ↔
    ∃ document position, posted document position ∧ x = address document position

/-- There is only one packing. -/
theorem IsPacking.unique {words other : Postings} {posted : DocumentId → Nat → Prop}
    (hwords : IsPacking words posted) (hother : IsPacking other posted) : words = other :=
  Postings.Canonical.ext hwords.canonical hother.canonical fun x =>
    (hwords.mem_iff x).trans (hother.mem_iff x).symm

/-- Where nothing is found, there are no positions. -/
theorem Covers.not_posted {posted : DocumentId → Nat → Prop}
    (h : Covers Option.none fun x => ∃ document position, posted document position ∧
      x = address document position) (document : DocumentId) (position : Nat) :
    ¬ posted document position := by
  intro hposted
  exact h.eq_none_iff.1 rfl _ ⟨document, position, hposted, rfl⟩

/-- A list that covers positions is their packing when it is normalized, and there are some. -/
theorem Covers.isPacking {words : Postings} {posted : DocumentId → Nat → Prop}
    (h : Covers (Option.some words) fun x => ∃ document position, posted document position ∧
      x = address document position) :
    IsPacking words.normalize posted ∧ ∃ document position, posted document position := by
  constructor
  · refine ⟨Postings.canonical_normalize h.full, fun x => ?_⟩
    rw [Postings.mem_addresses_normalize]
    exact h.mem_iff x
  · have hne : words ≠ [] := fun hnil => h.ne_nil (congrArg Option.some hnil)
    obtain ⟨x, hx⟩ := Postings.Full.exists_mem h.full hne
    obtain ⟨document, position, hposted, -⟩ := (h.mem_iff x).1 hx
    exact ⟨document, position, hposted⟩

namespace Indexer

variable {tokenizer : Tokenizer} {documents : List (DocumentId × String)}

/-- A unit occurs in the documents as they are taken in where it stands in them. -/
theorem occursIn_addition {unit : String} {x : Nat} :
    OccursIn common (documents.map (addition tokenizer)) unit x ↔
      ∃ document position, Posted tokenizer common documents unit document position ∧
        x = address document position := by
  constructor
  · intro h
    obtain ⟨document, tokens, hmem, position, hoccurs, hx⟩ := h
    obtain ⟨⟨document', content⟩, hcontent, heq⟩ := List.mem_map.1 hmem
    obtain ⟨rfl, rfl⟩ := Prod.mk.inj heq
    refine ⟨document', position, ⟨content, ?_⟩, hx⟩
    unfold indexedTokens at hoccurs
    cases htokens : tokenizer.tokens content with
    | error failure =>
        rw [htokens] at hoccurs
        have hlt := hoccurs.lt_length
        simp [Except.toOption] at hlt
    | ok tokens =>
        rw [htokens] at hoccurs
        exact ⟨tokens, hcontent, rfl, hoccurs⟩
  · intro h
    obtain ⟨document, position, ⟨content, tokens, hcontent, htokens, hoccurs⟩, hx⟩ := h
    refine ⟨document, indexedTokens tokenizer content,
      List.mem_map.2 ⟨(document, content), hcontent, rfl⟩, position, ?_, hx⟩
    unfold indexedTokens
    rw [htokens]
    exact hoccurs

/-- What was written fits into the numbers that are stored: the counts of lists and words of each
batch, the count of common tokens, and the places in the postings file. -/
structure PortionsFit (portions : List (List Addition)) (disk : Disk) : Prop where
  batches : ∀ common, HoldsCommon disk common → ∀ portion ∈ portions,
    (Batch.ofAdditions common portion).Countable
  commonTokens : ∀ common, HoldsCommon disk common → common.size < 2 ^ 31
  postings : ∀ bytes ∈ disk.file? IndexFile.postings.name, bytes.length < 2 ^ 63

/-- What a run writes fits into the numbers that are stored. -/
def Sized (settings : IndexSettings) (documents : List (DocumentId × String))
    (workspace : Workspace) : Prop :=
  PortionsFit (portionsOf settings documents) workspace.disk

/-- What was written fits, as far as it can be told from the bytes of the files: the file of the
common tokens is small, and the tokens that are read from it leave few enough lists and words. -/
def ClearlyFit (portions : List (List Addition)) (disk : Disk) : Prop :=
  (∀ bytes ∈ disk.file? IndexFile.commonTokens.name, bytes.length < 2 ^ 31 ∧
    ∀ common ∈ (CommonTokens.ofFile (some bytes)).toOption, ∀ portion ∈ portions,
      (Batch.ofAdditions common portion).Countable) ∧
  ∀ bytes ∈ disk.file? IndexFile.postings.name, bytes.length < 2 ^ 63

/-- Files can be checked to be small. -/
instance (portions : List (List Addition)) (disk : Disk) : Decidable (ClearlyFit portions disk) :=
  inferInstanceAs (Decidable (_ ∧ _))

/-- What fits by the bytes of the files fits. -/
theorem ClearlyFit.portionsFit {portions : List (List Addition)} (h : ClearlyFit portions disk) :
    PortionsFit portions disk := by
  have hsize : ∀ common, HoldsCommon disk common → common.size < 2 ^ 31 := by
    intro common hholds
    obtain ⟨bytes, hbytes, hfile⟩ := hholds
    exact Nat.lt_of_le_of_lt (CommonTokens.size_le_length hbytes) (h.1 bytes hfile).1
  refine ⟨fun common hholds => ?_, hsize, h.2⟩
  obtain ⟨bytes, hbytes, hfile⟩ := hholds
  have hread := CommonTokens.ofFile_toBytes (hsize common ⟨bytes, hbytes, hfile⟩) hbytes
  refine (h.1 bytes hfile).2 common ?_
  rw [hread]
  rfl

/-- The lists of all units as they are gathered from the batches of a run. -/
def gathered (settings : IndexSettings) (documents : List (DocumentId × String))
    (common : CommonTokens) : Table Postings :=
  union (streamsOf common (portionsOf settings documents))

/-- The gathered lists of a run cover the places where units stand. -/
theorem covers_gathered (settings : IndexSettings) (documents : List (DocumentId × String))
    (common : CommonTokens) (unit : String) :
    Covers ((gathered settings documents common).find? unit) fun x => ∃ document position,
      Posted settings.tokenizer common documents unit document position ∧
        x = address document position := by
  have hfits : ∀ portion ∈ portionsOf settings documents,
      ∀ added ∈ portion, Batch.Fits added.2 := by
    intro portion hportion added hadded
    have hall : added ∈ documents.map (addition settings.tokenizer) := by
      rw [← Portions.all_divide settings.batchSize (documents.map (addition settings.tokenizer))]
      exact List.mem_append_left _ (List.mem_flatten.2 ⟨portion, hportion, hadded⟩)
    obtain ⟨document, -, rfl⟩ := List.mem_map.1 hall
    exact fits_indexedTokens settings.tokenizer document.2
  rw [gathered, find?_union]
  refine (covers_streamsOf hfits unit).congr fun x => ?_
  rw [portionsOf, Portions.occursIn_divide, occursIn_addition]

/-- The lists of documents that were added in another order, or divided into other batches, are
gathered into the same normalized lists. -/
theorem normalize_gathered_congr {settings settings' : IndexSettings}
    {documents' : List (DocumentId × String)}
    (htokenizer : settings'.tokenizer = settings.tokenizer)
    (hdocuments : ∀ document, document ∈ documents' ↔ document ∈ documents) (unit : String) :
    ((gathered settings documents common).find? unit).map Postings.normalize =
      ((gathered settings' documents' common).find? unit).map Postings.normalize := by
  have hposted : ∀ document position,
      Posted settings'.tokenizer common documents' unit document position ↔
        Posted settings.tokenizer common documents unit document position := by
    intro document position
    simp only [Posted, htokenizer, hdocuments]
  refine (covers_gathered settings documents common unit).normalize_eq
    ((covers_gathered settings' documents' common unit).congr fun x => ?_)
  simp only [hposted]

end Indexer

/-- A searcher finds, for every unit, the packing of its positions if there are any. -/
structure Searcher.Packs (searcher : Searcher) (posted : String → DocumentId → Nat → Prop) :
    Prop where
  missing : ∀ unit, (∀ document position, ¬ posted unit document position) →
    searcher.postings unit = none
  packing : ∀ unit, (∃ document position, posted unit document position) →
    ∃ words, searcher.postings unit = some words ∧
      ∀ other, IsPacking other (posted unit) ↔ other = words

/-- A searcher that finds normalized lists which cover the positions of units finds their
packings. -/
theorem Searcher.packs_of_covers {searcher : Searcher} {posted : String → DocumentId → Nat → Prop}
    {lists : String → Option Postings}
    (hcovers : ∀ unit, Covers (lists unit) fun x => ∃ document position,
      posted unit document position ∧ x = address document position)
    (hfound : ∀ unit, searcher.postings unit = (lists unit).map Postings.normalize) :
    searcher.Packs posted := by
  constructor
  · intro unit hnone
    have hunit := hcovers unit
    rw [hfound]
    cases hlist : lists unit with
    | none => rfl
    | some words =>
        rw [hlist] at hunit
        obtain ⟨-, document, position, hposted⟩ := hunit.isPacking
        exact absurd hposted (hnone document position)
  · intro unit hsome
    obtain ⟨document, position, hposted⟩ := hsome
    have hunit := hcovers unit
    rw [hfound]
    cases hlist : lists unit with
    | none =>
        rw [hlist] at hunit
        exact absurd hposted (hunit.not_posted document position)
    | some words =>
        rw [hlist] at hunit
        obtain ⟨hpacking, -⟩ := hunit.isPacking
        refine ⟨words.normalize, rfl, fun other => ⟨fun hother => hother.unique hpacking, ?_⟩⟩
        rintro rfl
        exact hpacking

/-- A searcher finds the packings of all units, and its directory tells how many documents each of
them has. -/
structure Searcher.Finds (searcher : Searcher) (posted : String → DocumentId → Nat → Prop) :
    Prop extends searcher.Packs posted where
  counted : ∀ unit entry, searcher.directory.find? unit = some entry →
    ∃ distinct : List DocumentId, distinct.Nodup ∧
      (∀ document, document ∈ distinct ↔ ∃ position, posted unit document position) ∧
      entry.documents.toNat = distinct.length

namespace Indexer

variable {path : String} {settings : IndexSettings} {documents : List (DocumentId × String)}
  {workspace : Workspace}

/-- After a build whose numbers fit into 32 bits, the merge of what was gathered is committed, for
common tokens that the index keeps. -/
theorem committed_of_sized (hbuild : build path settings documents disk = .ok workspace)
    (hsized : Sized settings documents workspace) :
    ∃ common, HoldsCommon workspace.disk common ∧
      (∀ first, commonAtFirst settings.common = some first → common = first) ∧
      Committed common (MergeOutcome.addAll {} (gathered settings documents common).entries)
        workspace.disk := by
  obtain ⟨common, hcommon, hfirst, hcommitted⟩ := committed_of_build hbuild
  exact ⟨common, hcommon, hfirst, hcommitted (hsized.batches common hcommon)⟩

/-- The documents of a packing. -/
theorem exists_distinct {words : Postings} {posted : DocumentId → Nat → Prop}
    (h : IsPacking words posted) (hlimit : ∀ document position, posted document position →
      position < 2 ^ 20) :
    words.documents.Nodup ∧
      ∀ document, document ∈ words.documents ↔ ∃ position, posted document position := by
  refine ⟨?_, fun document => ?_⟩
  · refine Ordered.nodup_of_pairwise ?_ h.canonical.ascending.pairwise_documents
    intro a b hab hba
    exact absurd (UInt32.lt_trans hab hba) (UInt32.lt_irrefl a)
  · rw [h.canonical.full.mem_documents]
    constructor
    · intro hfound
      obtain ⟨p, hp, hmem⟩ := hfound
      obtain ⟨other, position, hposted, hsame⟩ := (h.mem_iff _).1 hmem
      obtain ⟨rfl, rfl⟩ := (address_inj hp (hlimit _ _ hposted)).1 hsame
      exact ⟨p, hposted⟩
    · intro hfound
      obtain ⟨position, hposted⟩ := hfound
      exact ⟨position, hlimit _ _ hposted, (h.mem_iff _).2 ⟨document, position, hposted, rfl⟩⟩

/-- What is posted stands at a position of 20 bits. -/
theorem lt_limit_of_posted {tokenizer : Tokenizer} {unit : String} {document : DocumentId}
    {position : Nat} (h : Posted tokenizer common documents unit document position) :
    position < 2 ^ 20 := by
  obtain ⟨content, tokens, -, -, hoccurs⟩ := h
  have hlt := hoccurs.lt_length
  rw [List.length_take] at hlt
  have hlimit : Position.limit.toNat < 2 ^ 20 := by decide
  omega

/-- Fewer documents than can be counted have a packing that can be counted. -/
theorem documentCount_lt {words : Postings} {common : CommonTokens} {unit : String}
    (h : IsPacking words (Posted settings.tokenizer common documents unit))
    (hdocuments : (documents.map (·.1)).eraseDups.length < 2 ^ 31) :
    words.documentCount < 2 ^ 31 := by
  obtain ⟨hnodup, hmem⟩ := exists_distinct h fun _ _ hposted => lt_limit_of_posted hposted
  rw [Postings.documentCount_eq_length]
  refine Nat.lt_of_le_of_lt (hnodup.length_le_of_subset fun document hdocument => ?_) hdocuments
  obtain ⟨position, content, tokens, hadded, -⟩ := (hmem document).1 hdocument
  rw [List.mem_eraseDups]
  exact List.mem_map.2 ⟨(document, content), hadded, rfl⟩

/-- The normalized lists that were gathered are the packings of what was added. -/
theorem packs_of_gathered {common : CommonTokens} {searcher : Searcher}
    (h : ∀ unit, searcher.postings unit =
      ((gathered settings documents common).find? unit).map Postings.normalize) :
    searcher.Packs (Posted settings.tokenizer common documents) :=
  Searcher.packs_of_covers (covers_gathered settings documents common) h

/-- After a run, a searcher opens and finds the packings of what was added. -/
theorem exists_searcher (hbuild : build path settings documents disk = .ok workspace)
    (hsized : Sized settings documents workspace) (searchPath : String)
    (searchSettings : SearchSettings) :
    ∃ searcher, Searcher.ofDisk workspace.disk searchPath searchSettings = .ok searcher ∧
      searcher.settings = searchSettings ∧
      searcher.Packs (Posted settings.tokenizer searcher.common documents) := by
  obtain ⟨common, hcommon, -, hcommitted⟩ := committed_of_sized hbuild hsized
  obtain ⟨searcher, hopen, hsettings, rfl, hfound⟩ := hcommitted.searcher
    (hsized.commonTokens common hcommon) hsized.postings searchPath searchSettings
  exact ⟨searcher, hopen, hsettings, packs_of_gathered fun unit => (hfound unit).1⟩

/-- A searcher of a committed index finds the packings of what was added. -/
theorem finds_of_committed {common : CommonTokens}
    (h : Committed common (MergeOutcome.addAll {} (gathered settings documents common).entries)
      workspace.disk)
    (hsized : Sized settings documents workspace)
    (hdocuments : (documents.map (·.1)).eraseDups.length < 2 ^ 31) (searchPath : String)
    (searchSettings : SearchSettings) :
    ∃ searcher, Searcher.ofDisk workspace.disk searchPath searchSettings = .ok searcher ∧
      searcher.common = common ∧
      searcher.Finds (Posted settings.tokenizer searcher.common documents) := by
  obtain ⟨searcher, hopen, -, rfl, hfound⟩ := h.searcher
    (hsized.commonTokens common h.commonTokens) hsized.postings searchPath searchSettings
  refine ⟨searcher, hopen, rfl, packs_of_gathered fun unit => (hfound unit).1, ?_⟩
  intro unit entry hentry
  have hpostings : searcher.postings unit = some (searcher.postingsFile.read entry) := by
    rw [Searcher.postings, hentry]
    rfl
  rw [(hfound unit).1] at hpostings
  obtain ⟨words, hunit, -⟩ := Option.map_eq_some_iff.1 hpostings
  have hcovers := covers_gathered settings documents searcher.common unit
  rw [hunit] at hcovers
  obtain ⟨hpacking, -⟩ := hcovers.isPacking
  obtain ⟨hnodup, hmem⟩ := exists_distinct hpacking fun _ _ hposted => lt_limit_of_posted hposted
  obtain ⟨entry', hentry', hcount⟩ := (hfound unit).2 words hunit
  cases hentry.symm.trans hentry'
  refine ⟨words.normalize.documents, hnodup, hmem, ?_⟩
  have hlt := documentCount_lt hpacking hdocuments
  rw [hcount, Record.toNat_int32 hlt, UInt32.toNat_ofNat_of_lt' (Nat.lt_trans hlt (by decide)),
    Postings.documentCount_eq_length]

/-! ## A small index -/

/-- Cuts a text into its characters and leaves spaces out. -/
def letters : Tokenizer :=
  { name := "letters"
    normalize := id
    tokenize := fun text =>
      .ok ((text.toList.filter fun character => character ≠ ' ').map String.singleton) }

/-- Settings with one common token. -/
def letterSettings (batchSize : Nat) : IndexSettings :=
  { batchSize, common := .list ["a"], tokenizer := letters }

/-- Two documents. -/
def letterDocuments : List (DocumentId × String) :=
  [(0, "cab"), (1, "ab ab")]

/-- A run that ends with a sized workspace has one. -/
theorem exists_of_any_sized {settings : IndexSettings} {documents : List (DocumentId × String)}
    (h : (build "index" settings documents {}).toOption.any
      (fun workspace => ClearlyFit (portionsOf settings documents) workspace.disk) = true) :
    ∃ workspace, build "index" settings documents {} = .ok workspace ∧
      Sized settings documents workspace := by
  obtain ⟨workspace, hbuild, hsized⟩ := Success.exists_of_any h
  exact ⟨workspace, hbuild, (of_decide_eq_true hsized).portionsFit⟩

set_option maxRecDepth 100000 in
/-- The documents are indexed in two batches, or in one. -/
theorem exists_letterWorkspace : ∀ batchSize ∈ [1, 2], ∃ workspace,
    build "index" (letterSettings batchSize) letterDocuments {} = .ok workspace ∧
      Sized (letterSettings batchSize) letterDocuments workspace := by
  have hruns : ∀ batchSize ∈ [1, 2],
      (build "index" (letterSettings batchSize) letterDocuments {}).toOption.any
        (fun workspace => ClearlyFit (portionsOf (letterSettings batchSize) letterDocuments)
          workspace.disk) = true := by
    decide +kernel
  exact fun batchSize hsize => exists_of_any_sized (hruns batchSize hsize)

/-! ## Committed postings -/

/-- Committed postings are the packings of what was added, for the common tokens that the index
ended up with. With common tokens that are known beforehand, the files depend on nothing but the set
of documents. -/
theorem postings_exact (hbuild : build path settings documents disk = .ok workspace)
    (hsized : Sized settings documents workspace)
    (hdocuments : (documents.map (·.1)).eraseDups.length < 2 ^ 31) :
    (∃ common, HoldsCommon workspace.disk common ∧ ∀ searchPath searchSettings,
      ∃ searcher, Searcher.ofDisk workspace.disk searchPath searchSettings = .ok searcher ∧
        searcher.common = common ∧
        searcher.Finds (Posted settings.tokenizer searcher.common documents)) ∧
    ∀ path' settings' documents' disk' workspace',
      build path' settings' documents' disk' = .ok workspace' →
      Sized settings' documents' workspace' →
      settings'.tokenizer = settings.tokenizer → settings'.common = settings.common →
      (settings.common = .none ∨ ∃ tokens, settings.common = .list tokens) →
      (∀ document, document ∈ documents' ↔ document ∈ documents) →
      ∃ postings directory,
        workspace.disk.file? IndexFile.postings.name = some postings ∧
        workspace'.disk.file? IndexFile.postings.name = some postings ∧
        workspace.disk.file? IndexFile.directory.name = some directory ∧
        workspace'.disk.file? IndexFile.directory.name = some directory := by
  obtain ⟨common, hcommon, hfirst, hcommitted⟩ := committed_of_sized hbuild hsized
  constructor
  · exact ⟨common, hcommon, finds_of_committed hcommitted hsized hdocuments⟩
  · intro path' settings' documents' disk' workspace' hbuild' hsized' htokenizer hsame hknown hmem
    obtain ⟨common', hcommon', hfirst', hcommitted'⟩ := committed_of_sized hbuild' hsized'
    have hchosen : ∃ first, commonAtFirst settings.common = some first := by
      rcases hknown with hnone | ⟨tokens, hlist⟩
      · rw [hnone]
        exact ⟨_, rfl⟩
      · rw [hlist]
        exact ⟨_, rfl⟩
    obtain ⟨first, hchosen⟩ := hchosen
    -- both runs know the same common tokens from the start
    have hequal : common' = common :=
      (hfirst' first (hsame ▸ hchosen)).trans (hfirst first hchosen).symm
    subst hequal
    have hmerged := MergedPostings.addAll_congr
      (@normalize_gathered_congr common' documents settings settings' documents' htokenizer hmem)
    rw [← hmerged] at hcommitted'
    obtain ⟨bytes, hbytes, hfile⟩ := hcommitted.directory
    obtain ⟨bytes', hbytes', hfile'⟩ := hcommitted'.directory
    cases hbytes.symm.trans hbytes'
    exact ⟨_, bytes, hcommitted.postings, hcommitted'.postings, hfile, hfile'⟩

/-- Two batches and one batch lead to the same postings. -/
theorem postings_exact_two_batches :
    ∃ workspace workspace',
      build "index" (letterSettings 1) letterDocuments {} = .ok workspace ∧
      build "index" (letterSettings 2) letterDocuments {} = .ok workspace' ∧
      (∃ searcher, Searcher.ofDisk workspace.disk "index" {} = .ok searcher ∧
        HoldsCommon workspace.disk searcher.common ∧
        searcher.Finds (Posted letters searcher.common letterDocuments)) ∧
      ∃ postings, workspace.disk.file? IndexFile.postings.name = some postings ∧
        workspace'.disk.file? IndexFile.postings.name = some postings := by
  obtain ⟨workspace, hbuild, hsized⟩ := exists_letterWorkspace 1 (by decide)
  obtain ⟨workspace', hbuild', hsized'⟩ := exists_letterWorkspace 2 (by decide)
  obtain ⟨⟨common, hcommon, hfinds⟩, hfiles⟩ := postings_exact hbuild hsized (by decide)
  obtain ⟨postings, directory, hpostings, hpostings', -, -⟩ :=
    hfiles "index" (letterSettings 2) letterDocuments {} workspace' hbuild' hsized' rfl rfl
      (Or.inr ⟨["a"], rfl⟩) (fun _ => Iff.rfl)
  obtain ⟨searcher, hopen, rfl, hfound⟩ := hfinds "index" {}
  exact ⟨workspace, workspace', hbuild, hbuild', ⟨searcher, hopen, hcommon, hfound⟩, postings,
    hpostings, hpostings'⟩

end Indexer
end Concordance
