import Concordance.Indexing.Commit
import Concordance.Proofs.Indexing.Merge
import Concordance.Proofs.Indexing.Run

/-!
# What a commit leaves on the disk

A commit that succeeds leaves three files behind that tell everything about the postings: the
postings file and the directory as the merge of all batches yields them, and the common tokens
(`Committed`). `Indexer.committed_of_build` says so of every run that creates an index, adds
documents and commits.
-/

namespace Concordance

open Attempt

/-- The lists of the batches of several portions. -/
def streamsOf (common : CommonTokens) (portions : List (List Addition)) : List Stream :=
  portions.map fun portion => (Batch.ofAdditions common portion).lists

/-- What the merge of the batches of several portions yields. -/
def mergedOf (common : CommonTokens) (portions : List (List Addition)) : MergedPostings :=
  MergeOutcome.addAll {} (union (streamsOf common portions)).entries

/-! ## Batches of portions -/

/-- Several batches have the lists of several portions. -/
abbrev CarryAll (common : CommonTokens) (portions : List (List Addition)) (batches : List Batch) :
    Prop :=
  List.Forall₂ (Batch.Carries common) portions batches

variable {common : CommonTokens} {portions : List (List Addition)}

/-- Batches of portions have the lists of these portions. -/
theorem carryAll_ofAdditions (portions : List (List Addition)) :
    CarryAll common portions (portions.map (Batch.ofAdditions common)) :=
  List.forall₂_map_right_iff.2 (List.forall₂_same.2 fun portion _ =>
    Batch.carries_ofAdditions portion)

/-- A batch that writes normalized lists in place of longer ones can be counted as well. -/
theorem Batch.Carries.countable {additions : List Addition} {batch : Batch}
    (h : Batch.Carries common additions batch)
    (hcountable : (Batch.ofAdditions common additions).Countable) : batch.Countable := by
  have hlists := hcountable.lists
  have hwords := hcountable.words
  rw [Batch.lists_eq, ← h.postings] at hlists hwords
  constructor
  · rw [Batch.lists_eq]
    rw [List.length_map] at hlists ⊢
    exact hlists
  · rw [Batch.lists_eq]
    intro entry hentry
    obtain ⟨unit, hunit, rfl⟩ := List.mem_map.1 hentry
    have hunit' := hwords _ (List.mem_map_of_mem hunit)
    cases hbatch : batch.inOrder with
    | true =>
        rw [h.inOrder hbatch] at hunit'
        exact hunit'
    | false =>
        cases hfresh : (Batch.ofAdditions common additions).inOrder with
        | true =>
            rw [hfresh] at hunit'
            exact Nat.lt_of_le_of_lt (Postings.length_normalize_le unit.2) hunit'
        | false =>
            rw [hfresh] at hunit'
            exact hunit'

/-- Lists gathered from the batches of several portions cover what occurs in any of them. -/
theorem covers_gather {batches : List Batch} (h : CarryAll common portions batches)
    (hfits : ∀ portion ∈ portions, ∀ addition ∈ portion, Batch.Fits addition.2) (unit : String) :
    Covers (gather (batches.map Batch.lists) unit) (OccursIn common portions.flatten unit) := by
  induction h with
  | nil =>
      refine Covers.none ?_
      intro x hgiven
      obtain ⟨document, tokens, hmem, -⟩ := hgiven
      cases hmem
  | @cons portion batch rest batches hportion hbatches ih =>
      have hfirst := hportion.covers_lists (hfits portion List.mem_cons_self) unit
      have hrest := ih fun other hother => hfits other (List.mem_cons_of_mem _ hother)
      have hsplit : ∀ x, OccursIn common (portion :: rest).flatten unit x ↔
          OccursIn common portion unit x ∨ OccursIn common rest.flatten unit x := by
        intro x
        rw [List.flatten_cons, occursIn_append]
      cases hfound : batch.lists.lookup unit with
      | none =>
          have hgather : gather ((batch :: batches).map Batch.lists) unit =
              gather (batches.map Batch.lists) unit := gather_cons_of_none hfound
          rw [hfound] at hfirst
          rw [hgather]
          refine hrest.congr fun x => ?_
          rw [hsplit]
          constructor
          · exact Or.inr
          · intro h
            exact h.resolve_left (hfirst.eq_none_iff.1 rfl x)
      | some words =>
          have hgather : gather ((batch :: batches).map Batch.lists) unit =
              some (words ++ (gather (batches.map Batch.lists) unit).getD []) := by
            unfold gather
            rw [List.map_cons, List.filterMap_cons, hfound]
            cases (batches.map Batch.lists).filterMap (List.lookup unit) with
            | nil => rfl
            | cons list lists => rfl
          rw [hfound] at hfirst
          rw [hgather]
          have hne : words ≠ [] := fun hnil => hfirst.ne_nil (congrArg some hnil)
          obtain ⟨x, hx⟩ := Postings.Full.exists_mem hfirst.full hne
          refine Covers.some (hfirst.full.append hrest.full) (fun y => ?_)
            ⟨x, (hsplit x).2 (Or.inl ((hfirst.mem_iff x).1 hx))⟩
          rw [Postings.mem_addresses_append, hrest.mem_iff, hsplit]
          exact or_congr_left (hfirst.mem_iff y)

/-- What is gathered for a unit covers its occurrences in the documents of all portions. -/
theorem covers_streamsOf
    (hfits : ∀ portion ∈ portions, ∀ addition ∈ portion, Batch.Fits addition.2) (unit : String) :
    Covers (gather (streamsOf common portions) unit) (OccursIn common portions.flatten unit) := by
  have hcovers := covers_gather (@carryAll_ofAdditions common portions) hfits unit
  rw [List.map_map] at hcovers
  exact hcovers

/-- Whichever batches have the lists of the portions, their merge is the same. -/
theorem merged_eq_mergedOf {batches : List Batch} (h : CarryAll common portions batches)
    (hfits : ∀ portion ∈ portions, ∀ addition ∈ portion, Batch.Fits addition.2) :
    MergeOutcome.addAll {} (union (batches.map Batch.lists)).entries =
      mergedOf common portions := by
  refine MergedPostings.addAll_congr fun unit => ?_
  rw [find?_union, find?_union]
  exact (covers_gather h hfits unit).normalize_eq (covers_streamsOf hfits unit)

/-! ## Committing -/

/-- The file of the common tokens is that of a set. -/
def HoldsCommon (disk : Disk) (common : CommonTokens) : Prop :=
  ∃ bytes, common.toBytes = .ok bytes ∧ disk.file? IndexFile.commonTokens.name = some bytes

/-- The files from which postings are read. -/
structure Committed (common : CommonTokens) (merged : MergedPostings) (disk : Disk) : Prop where
  present : disk.present = true
  postings : disk.file? IndexFile.postings.name = some merged.writer.toBytes
  directory : ∃ bytes, merged.directory.toBytes = .ok bytes ∧
    disk.file? IndexFile.directory.name = some bytes
  commonTokens : HoldsCommon disk common

/-- The files that must be legible for an index to be opened. -/
structure Legible (disk : Disk) : Prop where
  present : disk.present = true
  directory : ∃ (directory : TokenDirectory) (bytes : Bytes), directory.toBytes = .ok bytes ∧
    disk.file? IndexFile.directory.name = some bytes
  commonTokens : ∃ common, HoldsCommon disk common

namespace Indexer

variable {disk later : Disk}

/-! ## Merging the batch files -/

/-- Each batch file is read from the disk, opened, and read on to its first list. -/
theorem of_openBatches {path : String} {names : List String} {sources : List BatchSource}
    (h : Yields (openBatches path names) disk sources later) :
    Disk.Same disk later ∧ List.Forall₂ (fun name source => ∃ bytes opened,
      disk.file? name = some bytes ∧
        BatchSource.ofBytes (path ++ "/" ++ name) bytes = .ok opened ∧
        opened.advance = .ok source) names sources := by
  unfold openBatches at h
  obtain ⟨opened, between, hopen, hadvance⟩ := of_bind h
  obtain ⟨hsame, hopened⟩ := mapM_induction (Disk.Same disk)
    (fun name source => ∃ bytes, disk.file? name = some bytes ∧
      BatchSource.ofBytes (path ++ "/" ++ name) bytes = .ok source) (by
      intro name state source after hstate hstep
      obtain ⟨bytes, read, hread, hstep'⟩ := of_bind hstep
      obtain ⟨hsource, rfl⟩ := of_lift hstep'
      obtain ⟨hsame, hfile⟩ := Disk.of_read hread
      exact ⟨hstate.trans hsame, bytes, (hstate.file? name).symm.trans hfile, hsource⟩)
    ⟨rfl, rfl, rfl⟩ hopen
  obtain ⟨hsame', hadvanced⟩ := mapM_induction (Disk.Same disk)
    (fun (source : BatchSource) first => source.advance = .ok first) (by
      intro source state first after hstate hstep
      obtain ⟨hfirst, rfl⟩ := of_lift hstep
      exact ⟨hstate, hfirst⟩)
    hsame hadvance
  refine ⟨hsame', ?_⟩
  clear hopen hadvance h
  induction hopened generalizing sources with
  | nil =>
      cases hadvanced
      exact List.Forall₂.nil
  | cons hsource _ ih =>
      obtain _ | ⟨hnext, hnexts⟩ := hadvanced
      obtain ⟨bytes, hfile, hopened⟩ := hsource
      exact List.Forall₂.cons ⟨bytes, _, hfile, hopened, hnext⟩ (ih hnexts)

/-- The batch files deliver the lists of batches of the portions. -/
theorem deliver_of_written {path : String} {names : List String} {sources : List BatchSource}
    (hwritten : List.Forall₂ (Written common disk) names portions)
    (h : List.Forall₂ (fun name source => ∃ bytes opened, disk.file? name = some bytes ∧
      BatchSource.ofBytes (path ++ "/" ++ name) bytes = .ok opened ∧
      opened.advance = .ok source) names sources) :
    ∃ batches, CarryAll common portions batches ∧
      ((∀ portion ∈ portions, (Batch.ofAdditions common portion).Countable) →
        Deliver sources (batches.map Batch.lists)) := by
  induction hwritten generalizing sources with
  | nil =>
      cases h
      exact ⟨[], List.Forall₂.nil, fun _ => List.Forall₂.nil⟩
  | @cons name portion names portions hfirst hrest ih =>
      obtain _ | ⟨⟨bytes, opened, hfile, hopened, hnext⟩, hsources⟩ := h
      obtain ⟨batch, bytes', hcarries, hbytes, hfile'⟩ := hfirst
      cases hfile.symm.trans hfile'
      obtain ⟨batches, hbatches, hdeliver⟩ := ih hsources
      refine ⟨batch :: batches, List.Forall₂.cons hcarries hbatches, fun hcountable => ?_⟩
      have hahead := BatchSource.ahead_of_ofBytes
        (hcarries.countable (hcountable portion List.mem_cons_self)) hbytes hopened
      exact List.Forall₂.cons (hahead.advance hnext)
        (hdeliver fun other hother => hcountable other (List.mem_cons_of_mem _ hother))

/-- A merge of batch files that succeeds has merged all that their sources deliver, written it to
the postings file and used no other file. -/
theorem of_mergeBatches {own : String → Prop} {path : String} {names : List String}
    (hseparate : Disk.Separate own disk) (hown : own IndexFile.postings.name)
    {directory : TokenDirectory} {summary : MergeSummary}
    (h : Yields (mergeBatches path names) disk (directory, summary) later) :
    ∃ sources opened merged, Yields (openBatches path names) disk sources opened ∧
      MergeOutcome.ofSources sources = { merged } ∧
      directory = merged.directory ∧ summary = merged.summary ∧
      Disk.Touches own IndexFile.postings.name disk later ∧
      later.file? IndexFile.postings.name = some merged.writer.toBytes := by
  unfold mergeBatches at h
  obtain ⟨sources, opened, hopen, h⟩ := of_bind h
  obtain ⟨hsame, -⟩ := of_openBatches hopen
  obtain ⟨file, created, hcreate, h⟩ := of_bind h
  obtain ⟨_, written, hwrite, h⟩ := of_bind h
  obtain ⟨htouches, -, hbytes⟩ :=
    Disk.of_create_writeAt (hsame.separate hseparate) hown hcreate hwrite
  cases houtcome : MergeOutcome.ofSources sources with
  | mk merged failure =>
      rw [houtcome] at h hbytes
      cases failure with
      | some failure => exact (of_throw h).elim
      | none =>
          obtain ⟨hresult, rfl⟩ := of_pure h
          obtain ⟨rfl, rfl⟩ := Prod.mk.inj hresult
          exact ⟨sources, opened, merged, hopen, houtcome, rfl, rfl,
            (hsame.touches hseparate _).trans htouches, hbytes⟩

/-- Merging the batch files writes the merge of their batches. -/
theorem merged_of_written {path : String} {names : List String}
    (hwritten : List.Forall₂ (Written common disk) names portions)
    (hfits : ∀ portion ∈ portions, ∀ addition ∈ portion, Batch.Fits addition.2)
    (hcountable : ∀ portion ∈ portions, (Batch.ofAdditions common portion).Countable)
    {sources : List BatchSource} (hopen : Yields (openBatches path names) disk sources later)
    {merged : MergedPostings} (hmerge : MergeOutcome.ofSources sources = { merged }) :
    merged = mergedOf common portions := by
  obtain ⟨batches, hbatches, hdeliver⟩ := deliver_of_written hwritten (of_openBatches hopen).2
  have hsorted : ∀ stream ∈ batches.map Batch.lists, Stream.Sorted stream := by
    intro stream hstream
    obtain ⟨batch, -, rfl⟩ := List.mem_map.1 hstream
    exact batch.lists_sorted
  have hmerged := MergeOutcome.ofSources_eq (hdeliver hcountable) hsorted (by rw [hmerge])
  rw [hmerge, merged_eq_mergedOf hbatches hfits] at hmerged
  exact hmerged

/-! ## The other files -/

/-- What was used under the name of one file does not show under that of another one. -/
theorem file?_of_touches {used file : IndexFile} (h : Disk.Touches Reserved used.name disk later)
    (hne : file ≠ used) : later.file? file.name = disk.file? file.name :=
  h.files _ (reserved_name file) fun heq => hne (name_inj heq)

/-- Removing batch files changes no other file. -/
theorem of_removeBatches {workspace workspace' : Workspace} {count : Nat} {result : Unit}
    (htidy : workspace.Tidy)
    (h : Yields (((List.range count).map batchName).forM fun name =>
      Indexing.onDisk (Disk.remove name)) workspace result workspace') :
    workspace'.Tidy ∧ workspace'.indexer = workspace.indexer ∧
      ∀ file : IndexFile, workspace'.disk.file? file.name = workspace.disk.file? file.name := by
  have hkept := forM_induction (fun done now => (∀ name ∈ done, ∃ index, batchName index = name) →
    now.Tidy ∧ now.indexer = workspace.indexer ∧
      ∀ file : IndexFile, now.disk.file? file.name = workspace.disk.file? file.name) (by
    intro done name now next hnow hstep hnames
    obtain ⟨htidy, hindexer, hfiles⟩ :=
      hnow fun other hother => hnames other (List.mem_append_left _ hother)
    obtain ⟨index, rfl⟩ := hnames name (List.mem_append_right _ List.mem_cons_self)
    obtain ⟨hremove, hsame⟩ := Indexing.of_onDisk hstep
    have htouches := (Disk.of_remove hremove).touches htidy.separate
    refine ⟨htidy.touches htouches (name_ne_batchName _ index).symm (by rw [hsame]),
      hsame.trans hindexer, fun file => ?_⟩
    rw [htouches.files _ (reserved_name file) (name_ne_batchName file index), hfiles])
    (fun _ => ⟨htidy, rfl, fun _ => rfl⟩) h
  refine hkept fun name hname => ?_
  obtain ⟨index, -, rfl⟩ := List.mem_map.1 hname
  exact ⟨index, rfl⟩

/-- Finishing the document store changes its own files only. -/
theorem of_finishDocuments {documents : DocumentWriter} {result : Unit}
    (hwrites : documents.contents.Writes IndexFile.contents.name disk)
    (h : Yields (documents.finish IndexFile.places.name) disk result later) :
    Disk.Separate Reserved later ∧ ∀ file : IndexFile, file ≠ .contents → file ≠ .places →
      later.file? file.name = disk.file? file.name := by
  unfold DocumentWriter.finish at h
  obtain ⟨flushed, between, hflush, hwrite⟩ := of_bind h
  obtain ⟨-, htouches⟩ := Appender.of_flush (reserved_name .contents) hwrites hflush
  obtain ⟨htouches', -, -⟩ := Disk.of_write htouches.separate (reserved_name .places) hwrite
  refine ⟨htouches'.separate, fun file hcontents hplaces => ?_⟩
  rw [file?_of_touches htouches' hplaces, file?_of_touches htouches hcontents]

variable {path : String} {settings : IndexSettings} {portions : Portions}
  {workspace workspace' : Workspace}

/-- Writing the last two files. -/
theorem of_lastFiles {statistics : Bytes} {result : Unit}
    (hseparate : Disk.Separate Reserved workspace.disk)
    (h : Yields (do
      Indexing.onDisk (Disk.write IndexFile.statistics.name statistics)
      let bytes ← liftM common.toBytes
      Indexing.onDisk (Disk.write IndexFile.commonTokens.name bytes) : Indexing Unit)
      workspace result workspace') :
    workspace'.indexer = workspace.indexer ∧ workspace'.disk.present = true ∧
      (∀ file : IndexFile, file ≠ .statistics → file ≠ .commonTokens →
        workspace'.disk.file? file.name = workspace.disk.file? file.name) ∧
      workspace'.disk.file? IndexFile.statistics.name = some statistics ∧
      HoldsCommon workspace'.disk common := by
  obtain ⟨_, between, hfirst, hrest⟩ := Indexing.of_onDisk_bind h
  obtain ⟨bytes, hbytes, hlast⟩ := of_lift_bind hrest
  obtain ⟨hsecond, hindexer⟩ := Indexing.of_onDisk hlast
  obtain ⟨htouches, -, hstatistics⟩ := Disk.of_write hseparate (reserved_name .statistics) hfirst
  obtain ⟨htouches', hpresent, hfile⟩ :=
    Disk.of_write htouches.separate (reserved_name .commonTokens) hsecond
  refine ⟨hindexer, hpresent, fun file hstatistics hcommon => ?_, ?_, bytes, hbytes, hfile⟩
  · rw [file?_of_touches htouches' hcommon, file?_of_touches htouches hstatistics]
  · rw [file?_of_touches htouches' (by decide), hstatistics]

/-- The document store is finished if it is still open, which changes its own files only. -/
theorem of_closeDocuments {documents : Option DocumentWriter} {next : Indexing Unit}
    {result : Unit} (htidy : workspace.Tidy) (hdocuments : workspace.indexer.documents = documents)
    (h : Yields (match documents with
      | none => next
      | some documents => do
          Indexing.change fun indexer => { indexer with documents := none }
          Indexing.onDisk (documents.finish IndexFile.places.name)
          next) workspace result workspace') :
    ∃ stored : Workspace, (∃ documents, stored.indexer = { workspace.indexer with documents }) ∧
      Disk.Separate Reserved stored.disk ∧
      (∀ file : IndexFile, file ≠ .contents → file ≠ .places →
        stored.disk.file? file.name = workspace.disk.file? file.name) ∧
      Yields next stored result workspace' := by
  cases documents with
  | none => exact ⟨workspace, ⟨_, rfl⟩, htidy.separate, fun _ _ _ => rfl, h⟩
  | some documents =>
      replace h := Indexing.of_change_bind h
      obtain ⟨_, finished, hfinished, hrest⟩ := Indexing.of_onDisk_bind h
      obtain ⟨hseparate, hfiles⟩ := of_finishDocuments
        ⟨htidy.separate, htidy.contents documents hdocuments⟩ hfinished
      exact ⟨⟨{ workspace.indexer with documents := none }, finished⟩, ⟨none, rfl⟩, hseparate,
        hfiles, hrest⟩

/-- The files of an index tell what its indexer has counted. -/
structure Recorded (indexer : Indexer) (disk : Disk) : Prop where
  statistics : disk.file? IndexFile.statistics.name = some (Bytes.ofText indexer.statistics.text)
  lengths : disk.file? IndexFile.lengths.name = some indexer.lengths.toBytes

/-- Finishing an index leaves the merge of all its batches behind, and what was counted. -/
theorem of_finish {result : Unit} (h : Holds path settings portions workspace)
    (hfinish : Yields finish workspace result workspace') :
    ∃ common, HoldsCommon workspace'.disk common ∧
      (∀ first, commonAtFirst settings.common = some first → common = first) ∧
      Recorded workspace'.indexer workspace'.disk ∧ Legible workspace'.disk ∧
      ((∀ portion ∈ portions.close.complete, (Batch.ofAdditions common portion).Countable) →
        Committed common (mergedOf common portions.close.complete) workspace'.disk) := by
  unfold finish at hfinish
  obtain ⟨_, closed, hwrite, hrest⟩ := of_bind hfinish
  obtain ⟨⟨hholds, common, hknows⟩, -⟩ := of_writeBatch h hwrite
  replace hrest := Indexing.of_change_bind (Indexing.of_indexer_bind hrest)
  obtain ⟨⟨directory, summary⟩, written, hmerge, hrest⟩ := Indexing.of_onDisk_bind hrest
  obtain ⟨sources, _, merged, hopen, hsources, rfl, -, htouches, hmerged⟩ :=
    of_mergeBatches hholds.tidy.separate (reserved_name .postings) hmerge
  obtain ⟨bytes, hbytes, hrest⟩ := of_lift_bind hrest
  obtain ⟨_, recorded, hdirectory, hrest⟩ := Indexing.of_onDisk_bind hrest
  obtain ⟨htouches', -, hrecorded⟩ :=
    Disk.of_write htouches.separate (reserved_name .directory) hdirectory
  have htidy : Workspace.Tidy
      { indexer := { closed.indexer with common := none, batchFiles := [] }, disk := recorded } :=
    (@Workspace.Tidy.touches closed { indexer := closed.indexer, disk := written } hholds.tidy _
      htouches (by decide) rfl).touches htouches' (by decide) rfl
  obtain ⟨_, removed, hremove, hrest⟩ := of_bind (Indexing.of_change_bind hrest)
  rw [hholds.names] at hremove
  obtain ⟨htidy', hindexer, hremoved⟩ := of_removeBatches htidy hremove
  obtain ⟨_, measured, hlengths, hrest⟩ := Indexing.of_onDisk_bind hrest
  obtain ⟨htouches'', -, hlengths⟩ :=
    Disk.of_write htidy'.separate (reserved_name .lengths) hlengths
  have htidy'' : Workspace.Tidy { indexer := removed.indexer, disk := measured } :=
    htidy'.touches htouches'' (by decide) rfl
  rw [hknows.chosen, Option.getD_some] at hrest
  have hmeasured : ∀ file : IndexFile, file ≠ .lengths →
      measured.file? file.name = recorded.file? file.name := by
    intro file hne
    rw [file?_of_touches htouches'' hne, hremoved]
  obtain ⟨stored, ⟨documents, hstored⟩, hseparate, hfiles, hlast⟩ :=
    of_closeDocuments htidy'' (congrArg Indexer.documents hindexer) hrest
  obtain ⟨hsame, hpresent, hunchanged, hstatistics, hcommon⟩ := of_lastFiles hseparate hlast
  rw [hindexer] at hstored
  have hlisted : workspace'.disk.file? IndexFile.directory.name = some bytes := by
    rw [hunchanged _ (by decide) (by decide), hfiles _ (by decide) (by decide),
      hmeasured _ (by decide), hrecorded]
  refine ⟨common, hcommon, ?_, ⟨?_, ?_⟩,
    ⟨hpresent, ⟨_, bytes, hbytes, hlisted⟩, common, hcommon⟩, fun hcountable => ?_⟩
  · intro first hfirst
    exact Option.some.inj (hknows.chosen.symm.trans (hholds.atFirst first hfirst))
  · rw [hstatistics, hsame, hstored]
  · rw [hunchanged _ (by decide) (by decide), hfiles _ (by decide) (by decide), hlengths, hsame,
      hstored]
  · obtain rfl := merged_of_written hknows.written hholds.fits_complete hcountable hopen hsources
    refine ⟨hpresent, ?_, ⟨bytes, hbytes, hlisted⟩, hcommon⟩
    rw [hunchanged _ (by decide) (by decide), hfiles _ (by decide) (by decide),
      hmeasured _ (by decide), file?_of_touches htouches' (by decide)]
    exact hmerged

/-- The phase of an indexer makes no difference to what it has collected. -/
theorem holds_phase (h : Holds path settings portions workspace) (phase : Phase) :
    Holds path settings portions
      { workspace with indexer := { workspace.indexer with phase } } := by
  refine ⟨⟨h.tidy.separate, h.tidy.contents⟩, h.samePath, h.sameSettings, h.atFirst, h.names,
    h.fits, ?_⟩
  rcases h.gathers with hwaits | ⟨common, hknows⟩
  · exact Or.inl ⟨hwaits.unchosen, hwaits.batch, hwaits.sample, hwaits.complete⟩
  · exact Or.inr ⟨common, hknows.chosen, hknows.batch, hknows.sample, hknows.written⟩

/-- A commit that succeeds leaves the merge of all batches behind, and what was counted. -/
theorem of_commit {result : Unit} (h : Holds path settings portions workspace)
    (hcommit : Yields commit workspace result workspace') :
    ∃ common, HoldsCommon workspace'.disk common ∧
      (∀ first, commonAtFirst settings.common = some first → common = first) ∧
      Recorded workspace'.indexer workspace'.disk ∧ Legible workspace'.disk ∧
      ((∀ portion ∈ portions.close.complete, (Batch.ofAdditions common portion).Countable) →
        Committed common (mergedOf common portions.close.complete) workspace'.disk) := by
  unfold commit at hcommit
  obtain ⟨_, checked, hcheck, hrest⟩ := of_bind hcommit
  rw [of_checkAccepting hcheck] at hrest
  replace hrest := Indexing.of_change_bind hrest
  obtain ⟨_, finished, hfinish, hlast⟩ := of_bind hrest
  obtain ⟨common, hcommon, hfirst, ⟨hstatistics, hlengths⟩, hlegible, hcommitted⟩ :=
    of_finish (holds_phase h .merging) hfinish
  obtain rfl := Indexing.of_change hlast
  exact ⟨common, hcommon, hfirst, ⟨hstatistics, hlengths⟩, hlegible, hcommitted⟩

/-- Create an index in the directory of a disk, add documents and commit. Yields the workspace that
is left if all of this succeeds. -/
def build (path : String) (settings : IndexSettings) (documents : List (DocumentId × String))
    (disk : Disk) : Except Failure Workspace :=
  match create path settings disk with
  | (.ok indexer, disk) =>
      match index documents { indexer, disk } with
      | (.ok _, workspace) => .ok workspace
      | (.error failure, _) => .error failure
  | (.error failure, _) => .error failure

/-- A build consists of creating an index, adding the documents, and a commit. -/
theorem steps_of_build {documents : List (DocumentId × String)}
    (h : build path settings documents disk = .ok workspace) :
    ∃ indexer started added, Yields (create path settings) disk indexer started ∧
      Yields (documents.forM fun (document, content) => addDocument document content)
        { indexer, disk := started } () added ∧
      Yields commit added () workspace := by
  unfold build at h
  split at h
  · rename_i indexer started hcreate
    split at h
    · rename_i count workspace' hindex
      cases h
      unfold index at hindex
      obtain ⟨_, added, hadd, hrest⟩ := of_bind hindex
      obtain ⟨_, committed, hcommit, hrest⟩ := of_bind hrest
      obtain ⟨-, rfl⟩ := of_pure hrest
      exact ⟨indexer, started, added, hcreate, hadd, hcommit⟩
    · cases h
  · cases h

/-- The portions in which the documents of a run are written. -/
def portionsOf (settings : IndexSettings) (documents : List (DocumentId × String)) :
    List (List Addition) :=
  (Portions.divide settings.batchSize (documents.map (addition settings.tokenizer))).complete

/-- A run that succeeds leaves the merge of the batches of all its portions behind. -/
theorem committed_of_build {documents : List (DocumentId × String)}
    (h : build path settings documents disk = .ok workspace) :
    ∃ common, HoldsCommon workspace.disk common ∧
      (∀ first, commonAtFirst settings.common = some first → common = first) ∧
      ((∀ portion ∈ portionsOf settings documents,
          (Batch.ofAdditions common portion).Countable) →
        Committed common (mergedOf common (portionsOf settings documents)) workspace.disk) := by
  obtain ⟨indexer, started, added, hcreate, hadd, hcommit⟩ := steps_of_build h
  obtain ⟨common, hcommon, hfirst, -, -, hcommitted⟩ :=
    of_commit (of_addDocuments (holds_create hcreate) hadd).toHolds hcommit
  exact ⟨common, hcommon, hfirst, hcommitted⟩

/-- A run that succeeds leaves files that tell what was counted. -/
theorem recorded_of_build {documents : List (DocumentId × String)}
    (h : build path settings documents disk = .ok workspace) :
    Recorded workspace.indexer workspace.disk := by
  obtain ⟨indexer, started, added, hcreate, hadd, hcommit⟩ := steps_of_build h
  obtain ⟨-, -, -, hrecorded, -⟩ :=
    of_commit (of_addDocuments (holds_create hcreate) hadd).toHolds hcommit
  exact hrecorded

end Indexer
end Concordance
