import Concordance.Proofs.Indexing.Batch
import Concordance.Proofs.Indexing.Workspace

/-!
# What an indexer has gathered

The documents that were added are divided into portions (`Portions`): those whose batches were
written, and the one that is held in memory. `Holds` says how a workspace stands for this division,
whatever failed before, and `HoldsAll` that nothing was lost besides. Adding a document keeps the
latter (`of_addDocument`), so it holds of every run without failures (`of_addDocuments`).
-/

namespace Concordance

open Attempt

/-! ## Portions -/

/-- How added documents are divided into batches: the portions that were written, and the one that
is still held. -/
structure Portions where
  complete : List (List Addition) := []
  held : List Addition := []

namespace Portions

/-- Whether some document has a token. Other portions are not written. -/
def hasTokens (portion : List Addition) : Bool :=
  portion.any fun addition => !addition.2.isEmpty

/-- Write the held portion, if there is anything to write. -/
def close (portions : Portions) : Portions :=
  if hasTokens portions.held then ⟨portions.complete ++ [portions.held], []⟩ else portions

/-- Take one more document. -/
def take (portions : Portions) (addition : Addition) : Portions :=
  { portions with held := portions.held ++ [addition] }

/-- Lose the held portion. -/
def drop (portions : Portions) : Portions :=
  { portions with held := [] }

/-- Add a document, and write the held portion if it has as many documents as make up a batch. -/
def add (size : Nat) (portions : Portions) (addition : Addition) : Portions :=
  if size ≤ (portions.take addition).held.length then (portions.take addition).close
  else portions.take addition

/-- The portions of documents that were added one after another, the last portion included. -/
def divide (size : Nat) (additions : List Addition) : Portions :=
  (additions.foldl (add size) {}).close

/-- All documents, in the order in which they were added. -/
def all (portions : Portions) : List Addition :=
  portions.complete.flatten ++ portions.held

/-- A portion without tokens consists of documents that have none. -/
theorem hasTokens_eq_false {portion : List Addition} :
    hasTokens portion = false ↔ ∀ addition ∈ portion, addition.2 = [] := by
  simp [hasTokens, List.any_eq_false]

/-- Closing a portion loses no document. -/
theorem all_close (portions : Portions) : portions.close.all = portions.all := by
  unfold close
  split
  · simp [all]
  · rfl

/-- The document that is taken comes last. -/
theorem all_take (portions : Portions) (addition : Addition) :
    (portions.take addition).all = portions.all ++ [addition] :=
  (List.append_assoc _ _ _).symm

/-- The document that is added comes last, whether the portion is written or not. -/
theorem all_add (size : Nat) (portions : Portions) (addition : Addition) :
    (portions.add size addition).all = portions.all ++ [addition] := by
  unfold add
  split
  · rw [all_close, all_take]
  · exact all_take portions addition

/-- Documents that are added one after another come behind those that were there. -/
theorem all_foldl (size : Nat) (additions : List Addition) (portions : Portions) :
    (additions.foldl (add size) portions).all = portions.all ++ additions := by
  induction additions generalizing portions with
  | nil => exact (List.append_nil _).symm
  | cons addition rest ih =>
      rw [List.foldl_cons, ih, all_add, List.append_assoc]
      rfl

/-- Divided into portions, the documents are still all there, in their order. -/
theorem all_divide (size : Nat) (additions : List Addition) :
    (divide size additions).all = additions := by
  rw [divide, all_close, all_foldl]
  rfl

/-- No token is left out of the portions that were written at the end. -/
theorem held_close {portions : Portions} : ∀ addition ∈ portions.close.held, addition.2 = [] := by
  unfold close
  split
  · intro addition h
    cases h
  · rename_i h
    exact hasTokens_eq_false.1 (by simpa using h)

/-- A unit occurs in the portions that are written at the end exactly if it occurs in any of the
documents. -/
theorem occursIn_close {common : CommonTokens} (portions : Portions) (unit : String) (x : Nat) :
    OccursIn common portions.close.complete.flatten unit x ↔
      OccursIn common portions.all unit x := by
  have hall : portions.close.complete.flatten ++ portions.close.held = portions.all :=
    all_close portions
  have hheld : ¬ OccursIn common portions.close.held unit x := by
    intro hfound
    obtain ⟨document, tokens, hmem, position, hoccurs, -⟩ := hfound
    have hlt := hoccurs.lt_length
    rw [show tokens = [] from held_close (document, tokens) hmem] at hlt
    exact Nat.not_lt_zero _ hlt
  constructor
  · intro h
    rw [← hall, occursIn_append]
    exact Or.inl h
  · intro h
    rw [← hall, occursIn_append] at h
    exact h.resolve_right hheld

/-- A unit occurs in the portions that are written exactly if it occurs in the documents. -/
theorem occursIn_divide {common : CommonTokens} (size : Nat) (additions : List Addition)
    (unit : String) (x : Nat) :
    OccursIn common (divide size additions).complete.flatten unit x ↔
      OccursIn common additions unit x := by
  rw [divide, occursIn_close, all_foldl]
  rfl

end Portions

/-! ## Workspaces -/

/-- The file of a name holds a batch of a portion. -/
def Written (common : CommonTokens) (disk : Disk) (name : String) (portion : List Addition) :
    Prop :=
  ∃ batch bytes, Batch.Carries common portion batch ∧ batch.toBytes = .ok bytes ∧
    disk.file? name = some bytes

/-- An indexer knows its common tokens, and has these portions in its batch and in its files. -/
structure Knows (common : CommonTokens) (portions : Portions) (workspace : Workspace) : Prop where
  chosen : workspace.indexer.common = some common
  batch : Batch.Carries common portions.held workspace.indexer.batch
  sample : workspace.indexer.sample = []
  written : List.Forall₂ (Written common workspace.disk) workspace.indexer.batchFiles
    portions.complete

/-- An indexer waits for its common tokens, and has all documents in its sample. -/
structure Waits (portions : Portions) (workspace : Workspace) : Prop where
  unchosen : workspace.indexer.common = none
  batch : workspace.indexer.batch = {}
  sample : workspace.indexer.sample = portions.held
  complete : portions.complete = []

/-- A workspace stands for these portions. -/
structure Holds (path : String) (settings : IndexSettings) (portions : Portions)
    (workspace : Workspace) : Prop where
  tidy : workspace.Tidy
  samePath : workspace.indexer.path = path
  sameSettings : workspace.indexer.settings = settings
  atFirst : ∀ common, Indexer.commonAtFirst settings.common = some common →
    workspace.indexer.common = some common
  names : workspace.indexer.batchFiles = (List.range portions.complete.length).map batchName
  fits : ∀ addition ∈ portions.all, Batch.Fits addition.2
  gathers : Waits portions workspace ∨ ∃ common, Knows common portions workspace

variable {path : String} {settings : IndexSettings} {portions : Portions}
  {workspace later : Workspace}

/-- The batch files are as they were if another name was used. -/
theorem written_of_touches {common : CommonTokens} {disk later : Disk} {name : String}
    {count : Nat} {written : List (List Addition)}
    (hwritten : List.Forall₂ (Written common disk) ((List.range count).map batchName) written)
    (htouches : Disk.Touches Reserved name disk later)
    (hne : ∀ index < count, batchName index ≠ name) :
    List.Forall₂ (Written common later) ((List.range count).map batchName) written := by
  refine List.forall₂_iff_zip.2 ⟨hwritten.length_eq, fun {file portion} hmem => ?_⟩
  obtain ⟨batch, bytes, hcarries, hbytes, hfile⟩ := (List.forall₂_iff_zip.1 hwritten).2 hmem
  obtain ⟨index, hindex, rfl⟩ := List.mem_map.1 (List.of_mem_zip hmem).1
  refine ⟨batch, bytes, hcarries, hbytes, ?_⟩
  rw [htouches.files _ (reserved_batchName index) (hne index (List.mem_range.1 hindex))]
  exact hfile

/-- All tokens of the documents that are held have a position. -/
theorem Holds.fits_held (h : Holds path settings portions workspace) :
    ∀ addition ∈ portions.held, Batch.Fits addition.2 :=
  fun addition hmem => h.fits addition (List.mem_append_right _ hmem)

/-- All tokens of the documents in complete portions have a position. -/
theorem Holds.fits_complete (h : Holds path settings portions workspace) :
    ∀ portion ∈ portions.complete, ∀ addition ∈ portion, Batch.Fits addition.2 :=
  fun portion hportion addition hmem =>
    h.fits addition (List.mem_append_left _ (List.mem_flatten.2 ⟨portion, hportion, hmem⟩))

namespace Indexer

/-! ## Choosing common tokens -/

/-- Choosing the common tokens leaves the number of documents that are held. -/
theorem pending_chooseCommon (indexer : Indexer) :
    (chooseCommon indexer).pending = indexer.pending := by
  unfold chooseCommon
  split
  · rfl
  · show (Batch.addAll _ indexer.batch indexer.sample).documents + 0 = _
    rw [Batch.documents_addAll]
    rfl

/-- Choosing the common tokens writes no batch file. -/
theorem batchFiles_chooseCommon (indexer : Indexer) :
    (chooseCommon indexer).batchFiles = indexer.batchFiles := by
  unfold chooseCommon
  split
  · rfl
  · rfl

/-- The common tokens are chosen before anything is written. -/
theorem holds_chooseCommon (h : Holds path settings portions workspace) :
    Holds path settings portions
        { workspace with indexer := chooseCommon workspace.indexer } ∧
      ∃ common, Knows common portions
        { workspace with indexer := chooseCommon workspace.indexer } := by
  rcases h.gathers with hwaits | ⟨common, hknows⟩
  · have hnil : workspace.indexer.batchFiles = [] := by
      rw [h.names, hwaits.complete]
      rfl
    let common := CommonTokens.select workspace.indexer.settings.common
      (frequencies workspace.indexer.sample)
    have hchosen : chooseCommon workspace.indexer =
        { workspace.indexer with
          batch := Batch.addAll common workspace.indexer.batch workspace.indexer.sample
          sample := []
          common := some common } := by
      unfold chooseCommon
      rw [hwaits.unchosen]
      rfl
    have hknows : Knows common portions
        { workspace with indexer := chooseCommon workspace.indexer } := by
      rw [hchosen]
      refine ⟨rfl, ?_, rfl, ?_⟩
      · show Batch.Carries common portions.held
          (Batch.addAll common workspace.indexer.batch workspace.indexer.sample)
        rw [hwaits.batch, hwaits.sample]
        exact Batch.carries_ofAdditions portions.held
      · show List.Forall₂ _ workspace.indexer.batchFiles _
        rw [hnil, hwaits.complete]
        exact List.Forall₂.nil
    refine ⟨⟨?_, ?_, ?_, ?_, ?_, h.fits, Or.inr ⟨common, hknows⟩⟩, common, hknows⟩
    · rw [hchosen]
      exact ⟨h.tidy.separate, h.tidy.contents⟩
    · rw [hchosen]
      exact h.samePath
    · rw [hchosen]
      exact h.sameSettings
    · intro other hother
      have hsome := h.atFirst other hother
      rw [hwaits.unchosen] at hsome
      cases hsome
    · rw [hchosen]
      exact h.names
  · have hchosen : chooseCommon workspace.indexer = workspace.indexer := by
      unfold chooseCommon
      rw [hknows.chosen]
    rw [hchosen]
    exact ⟨h, common, hknows⟩

/-! ## Writing the batch -/

/-- The next batch name is a new one. -/
theorem batchName_ne {index count : Nat} (h : index < count) : batchName index ≠ batchName count :=
  fun heq => Nat.ne_of_lt h (batchName_inj heq)

/-- The indexer whose batch stands in a file of its own. -/
def filed (indexer : Indexer) : Indexer :=
  { indexer with
    batch := { postings := Table.empty }
    batchFiles := indexer.batchFiles ++ [batchName indexer.batchFiles.length] }

/-- The indexer whose lists have left the batch. -/
def emptied (indexer : Indexer) : Indexer :=
  { indexer with batch := { indexer.batch with postings := Table.empty } }

/-- The batch is empty exactly if no document in it has a token. -/
theorem isEmpty_of_knows {common : CommonTokens} (h : Holds path settings portions workspace)
    (hknows : Knows common portions workspace) :
    workspace.indexer.batch.postings.isEmpty = !Portions.hasTokens portions.held := by
  have hempty := @Batch.isEmpty_ofAdditions common portions.held h.fits_held
  rw [← hknows.batch.postings, ← Portions.hasTokens_eq_false] at hempty
  rw [Bool.eq_iff_iff, hempty, Bool.not_eq_true']

/-- The files in use stay as they were while the next batch name is used. -/
theorem written_of_next {common : CommonTokens} {disk : Disk}
    (h : Holds path settings portions workspace) (hknows : Knows common portions workspace)
    (htouches : Disk.Touches Reserved (batchName workspace.indexer.batchFiles.length)
      workspace.disk disk) :
    List.Forall₂ (Written common disk) workspace.indexer.batchFiles portions.complete := by
  have hlength : workspace.indexer.batchFiles.length = portions.complete.length := by
    rw [h.names, List.length_map, List.length_range]
  have hlater := written_of_touches (h.names ▸ hknows.written) htouches
    fun index hindex => batchName_ne (hlength.symm ▸ hindex)
  exact h.names ▸ hlater

/-- Once the batch stands in a file of its own, the held portion is closed. -/
theorem holds_close {common : CommonTokens} {bytes : Bytes} {written : Disk}
    (h : Holds path settings portions workspace) (hknows : Knows common portions workspace)
    (htokens : Portions.hasTokens portions.held = true)
    (hbytes : workspace.indexer.batch.toBytes = .ok bytes)
    (htouches : Disk.Touches Reserved (batchName workspace.indexer.batchFiles.length)
      workspace.disk written)
    (hfile : written.file? (batchName workspace.indexer.batchFiles.length) = some bytes) :
    Holds path settings portions.close ⟨filed workspace.indexer, written⟩ ∧
      Knows common portions.close ⟨filed workspace.indexer, written⟩ := by
  have hclose : portions.close = ⟨portions.complete ++ [portions.held], []⟩ := if_pos htokens
  -- the names in use are numbered without gaps, so that the next one is free
  have hnames : (List.range (portions.complete.length + 1)).map batchName =
      workspace.indexer.batchFiles ++ [batchName workspace.indexer.batchFiles.length] := by
    rw [List.range_succ, List.map_append, ← h.names, h.names, List.length_map, List.length_range]
    rfl
  have hknows' : Knows common portions.close ⟨filed workspace.indexer, written⟩ := by
    have hbatch : Written common written (batchName workspace.indexer.batchFiles.length)
        portions.held := ⟨_, bytes, hknows.batch, hbytes, hfile⟩
    rw [hclose]
    refine ⟨hknows.chosen, Batch.carries_nil rfl, hknows.sample, ?_⟩
    exact List.rel_append (written_of_next h hknows htouches)
      (List.Forall₂.cons hbatch List.Forall₂.nil)
  refine ⟨⟨?_, h.samePath, h.sameSettings, h.atFirst, ?_, ?_, Or.inr ⟨common, hknows'⟩⟩, hknows'⟩
  · exact h.tidy.touches htouches (name_ne_batchName _ _).symm rfl
  · rw [hclose]
    show workspace.indexer.batchFiles ++ _ = _
    rw [List.length_append, List.length_singleton, hnames]
  · rw [Portions.all_close]
    exact h.fits

/-- Once the lists have left the batch and are not in a file, the held portion is lost. -/
theorem holds_drop {common : CommonTokens} {disk : Disk}
    (h : Holds path settings portions workspace) (hknows : Knows common portions workspace)
    (htouches : Disk.Touches Reserved (batchName workspace.indexer.batchFiles.length)
      workspace.disk disk) :
    Holds path settings portions.drop ⟨emptied workspace.indexer, disk⟩ := by
  have hwritten := written_of_next h hknows htouches
  have hknows' : Knows common portions.drop ⟨emptied workspace.indexer, disk⟩ :=
    ⟨hknows.chosen, Batch.carries_nil rfl, hknows.sample, hwritten⟩
  refine ⟨?_, h.samePath, h.sameSettings, h.atFirst, h.names, ?_, Or.inr ⟨common, hknows'⟩⟩
  · exact h.tidy.touches htouches (name_ne_batchName _ _).symm rfl
  · intro addition hmem
    have hcomplete : addition ∈ portions.complete.flatten := by
      rwa [Portions.all, Portions.drop, List.append_nil] at hmem
    exact h.fits addition (List.mem_append_left _ hcomplete)

/-- Writing the batch closes the held portion, and the common tokens are known afterwards. -/
theorem of_writeBatch {result : Unit} (h : Holds path settings portions workspace)
    (hwrite : Yields writeBatch workspace result later) :
    (Holds path settings portions.close later ∧ ∃ common, Knows common portions.close later) ∧
      later.indexer =
        if Portions.hasTokens portions.held then filed (chooseCommon workspace.indexer)
        else chooseCommon workspace.indexer := by
  unfold writeBatch at hwrite
  have hrest := Indexing.of_change_bind hwrite
  obtain ⟨hholds, common, hknows⟩ := holds_chooseCommon h
  have hempty := isEmpty_of_knows hholds hknows
  replace hrest := Indexing.of_indexer_bind hrest
  simp only at hrest hempty
  rw [hempty] at hrest
  cases htokens : Portions.hasTokens portions.held with
  | true =>
      rw [htokens] at hrest
      simp only [Bool.not_true, Bool.not_false, if_true] at hrest
      -- the lists have left the batch, but what is written is the batch as it was before
      replace hrest := Indexing.of_change_bind hrest
      obtain ⟨file, created, hcreate, hrest'⟩ := Indexing.of_onDisk_bind hrest
      obtain ⟨bytes, hbytes, hrest''⟩ := of_lift_bind hrest'
      obtain ⟨_, written, hwriteAt, hlast⟩ := Indexing.of_onDisk_bind hrest''
      obtain ⟨htouches, -, hfile⟩ := Disk.of_create_writeAt hholds.tidy.separate
        (reserved_batchName (chooseCommon workspace.indexer).batchFiles.length) hcreate hwriteAt
      obtain ⟨hholds', hknows'⟩ := holds_close hholds hknows htokens hbytes htouches hfile
      rw [Indexing.of_change hlast, if_pos rfl]
      exact ⟨⟨hholds', common, hknows'⟩, rfl⟩
  | false =>
      rw [htokens] at hrest
      simp only [Bool.not_false, Bool.not_true, Bool.false_eq_true, if_false] at hrest
      have hclose : portions.close = portions := if_neg (by rw [htokens]; exact Bool.false_ne_true)
      obtain ⟨-, rfl⟩ := of_pure hrest
      rw [hclose, if_neg Bool.false_ne_true]
      exact ⟨⟨hholds, common, hknows⟩, rfl⟩

/-- A batch that cannot be written is lost with all that is held. -/
theorem fails_writeBatch {failure : Failure} (h : Holds path settings portions workspace)
    (hwrite : Fails writeBatch workspace failure later) :
    Holds path settings portions.drop later := by
  unfold writeBatch at hwrite
  have hrest := Indexing.fails_change_bind hwrite
  obtain ⟨hholds, common, hknows⟩ := holds_chooseCommon h
  replace hrest := Indexing.fails_indexer_bind hrest
  simp only at hrest
  have hseparate := hholds.tidy.separate
  have hreserved := reserved_batchName (chooseCommon workspace.indexer).batchFiles.length
  -- whichever step fails, nothing but the next batch name was used
  suffices hlost : later.indexer = emptied (chooseCommon workspace.indexer) ∧
      Disk.Touches Reserved (batchName (chooseCommon workspace.indexer).batchFiles.length)
        workspace.disk later.disk by
    obtain ⟨hindexer, htouches⟩ := hlost
    have hdrop := holds_drop hholds hknows htouches
    rw [← hindexer] at hdrop
    exact hdrop
  split at hrest
  · replace hrest := Indexing.fails_change_bind hrest
    rcases Indexing.fails_onDisk_bind hrest with ⟨hcreate, hindexer⟩ |
      ⟨file, created, hcreate, hrest'⟩
    · exact ⟨hindexer, (Disk.fails_create hcreate).touches hseparate _⟩
    · obtain ⟨htouches, -, -, -⟩ := Disk.of_create hseparate hreserved hcreate
      rcases fails_of_lift_bind hrest' with rfl | ⟨bytes, -, hrest''⟩
      · exact ⟨rfl, htouches⟩
      · rcases Indexing.fails_onDisk_bind hrest'' with ⟨hwriteAt, hindexer⟩ | ⟨_, _, -, hlast⟩
        · exact ⟨hindexer,
            htouches.trans ((Disk.fails_writeAt hwriteAt).touches htouches.separate _)⟩
        · exact (Indexing.not_fails_change hlast).elim
  · exact (not_fails_pure hrest).elim

/-! ## Adding documents -/

/-- Asking whether documents are accepted changes nothing. -/
theorem of_checkAccepting {result : Unit}
    (h : Yields checkAccepting workspace result later) : later = workspace := by
  unfold checkAccepting at h
  replace h := Indexing.of_indexer_bind h
  split at h
  · exact (of_throw h).elim
  · exact (of_pure h).2

/-- If documents are not accepted, nothing has changed. -/
theorem fails_checkAccepting {failure : Failure}
    (h : Fails checkAccepting workspace failure later) : later = workspace := by
  unfold checkAccepting at h
  replace h := Indexing.fails_indexer_bind h
  split at h
  · exact fails_of_throw h
  · exact (not_fails_pure h).elim

/-- The tokens of a content that are indexed. -/
def indexedTokens (tokenizer : Tokenizer) (content : String) : List String :=
  ((tokenizer.tokens content).toOption.getD []).take Position.limit.toNat

/-- The tokens of a document are cut off before they outgrow the positions. -/
theorem fits_indexedTokens (tokenizer : Tokenizer) (content : String) :
    Batch.Fits (indexedTokens tokenizer content) := by
  unfold Batch.Fits indexedTokens
  rw [List.length_take]
  omega

/-- The document as it is taken into a batch. -/
def addition (tokenizer : Tokenizer) (document : DocumentId × String) : Addition :=
  (document.1, indexedTokens tokenizer document.2)

/-- While the common tokens are not chosen yet, a document joins the sample. -/
theorem collect_of_none {indexer : Indexer} (h : indexer.common = none) (added : Addition) :
    collect added.1 added.2 indexer = { indexer with sample := indexer.sample ++ [added] } := by
  unfold collect
  split
  · rename_i hsome
    cases h.symm.trans hsome
  · rfl

/-- Once the common tokens are chosen, a document goes into the batch. -/
theorem collect_of_some {indexer : Indexer} {common : CommonTokens}
    (h : indexer.common = some common) (added : Addition) :
    collect added.1 added.2 indexer =
      { indexer with batch := indexer.batch.addDocument common added.1 added.2 } := by
  unfold collect
  split
  · rename_i hsome
    cases h.symm.trans hsome
    rfl
  · rename_i hnone
    cases h.symm.trans hnone

/-- Storing a content leaves the portions as they are. -/
theorem holds_stored (h : Holds path settings portions workspace)
    {documents : Option DocumentWriter} (htidy : later.Tidy)
    (htouches : Disk.Touches Reserved IndexFile.contents.name workspace.disk later.disk)
    (hindexer : later.indexer = { workspace.indexer with documents }) :
    Holds path settings portions later := by
  obtain ⟨indexer, disk⟩ := later
  obtain rfl := hindexer
  refine ⟨htidy, h.samePath, h.sameSettings, h.atFirst, h.names, h.fits, ?_⟩
  rcases h.gathers with hwaits | ⟨common, hknows⟩
  · exact Or.inl ⟨hwaits.unchosen, hwaits.batch, hwaits.sample, hwaits.complete⟩
  · have hlater := written_of_touches (h.names ▸ hknows.written) htouches
      fun index _ => (name_ne_batchName _ index).symm
    exact Or.inr ⟨common, hknows.chosen, hknows.batch, hknows.sample, h.names ▸ hlater⟩

/-- Taking the tokens of a document in adds them to the held portion. -/
theorem holds_collect (h : Holds path settings portions workspace) {added : Addition}
    (hfits : Batch.Fits added.2) {length : UInt32} :
    Holds path settings (portions.take added)
      { workspace with
        indexer := collect added.1 added.2 (account added.1 length workspace.indexer) } := by
  have hfits' : ∀ other ∈ (portions.take added).all, Batch.Fits other.2 := by
    rw [Portions.all_take]
    intro other hother
    rcases List.mem_append.1 hother with hother | hother
    · exact h.fits other hother
    · rw [List.mem_singleton.1 hother]
      exact hfits
  rcases h.gathers with hwaits | ⟨common, hknows⟩
  · rw [collect_of_none
      (show (account added.1 length workspace.indexer).common = none from hwaits.unchosen)]
    refine ⟨⟨h.tidy.separate, h.tidy.contents⟩, h.samePath, h.sameSettings, h.atFirst, h.names,
      hfits', Or.inl ⟨hwaits.unchosen, hwaits.batch, ?_, hwaits.complete⟩⟩
    exact congrArg (· ++ [added]) hwaits.sample
  · rw [collect_of_some
      (show (account added.1 length workspace.indexer).common = some common from hknows.chosen)]
    exact ⟨⟨h.tidy.separate, h.tidy.contents⟩, h.samePath, h.sameSettings, h.atFirst, h.names,
      hfits', Or.inr ⟨common, hknows.chosen, hknows.batch.addDocument added, hknows.sample,
        hknows.written⟩⟩

/-- Collecting a document makes one more document wait to be written. -/
theorem pending_collect (added : Addition) (length : UInt32) (indexer : Indexer) :
    (collect added.1 added.2 (account added.1 length indexer)).pending = indexer.pending + 1 := by
  unfold collect
  split
  · show indexer.batch.documents + 1 + indexer.sample.length = _
    exact Nat.add_right_comm _ _ _
  · show indexer.batch.documents + (indexer.sample ++ [added]).length = _
    rw [List.length_append]
    rfl

/-- Take a document in: all that adding it does, but for the writing of a batch. -/
def takeIn (document : DocumentId) (content : String) : Indexing Unit := do
  checkAccepting
  let tokens ← (← Indexing.indexer).settings.tokenizer.tokens content
  let tokens := tokens.take Position.limit.toNat
  storeContent document content
  Indexing.change (account document tokens.length.toUInt32)
  Indexing.change (collect document tokens)

/-- Write the batch if it holds enough documents. -/
def writeIfFull : Indexing Unit := do
  let indexer ← Indexing.indexer
  if indexer.settings.batchSize ≤ indexer.pending then writeBatch

/-- A document is taken in, and then the batch is written if it is full. -/
theorem addDocument_eq (document : DocumentId) (content : String) :
    addDocument document content = (do
      takeIn document content
      writeIfFull) := by
  simp only [addDocument, takeIn, writeIfFull, bind_assoc]

/-- Taking a document in adds it to the held portion. -/
theorem of_takeIn {document : DocumentId} {content : String} {result : Unit}
    (h : Holds path settings portions workspace)
    (htake : Yields (takeIn document content) workspace result later) :
    Holds path settings (portions.take (addition settings.tokenizer (document, content))) later ∧
      later.indexer.pending = workspace.indexer.pending + 1 := by
  unfold takeIn at htake
  obtain ⟨_, checked, hcheck, hrest⟩ := of_bind htake
  rw [of_checkAccepting hcheck] at hrest
  replace hrest := Indexing.of_indexer_bind hrest
  obtain ⟨tokens, htokens, hrest'⟩ := of_lift_bind hrest
  rw [h.sameSettings] at htokens
  have hindexed : indexedTokens settings.tokenizer content = tokens.take Position.limit.toNat := by
    unfold indexedTokens
    rw [htokens]
    rfl
  simp only at hrest'
  rw [← hindexed] at hrest'
  obtain ⟨_, stored, hstore, hrest''⟩ := of_bind hrest'
  obtain ⟨htidy, htouches, documents, hindexer⟩ := of_storeContent h.tidy hstore
  have hstored := holds_stored h htidy htouches hindexer
  replace hrest'' := Indexing.of_change_bind hrest''
  obtain rfl := Indexing.of_change hrest''
  refine ⟨holds_collect hstored (fits_indexedTokens settings.tokenizer content), ?_⟩
  have hpending : stored.indexer.pending = workspace.indexer.pending := by
    rw [hindexer]
    rfl
  rw [← hpending]
  exact pending_collect (addition settings.tokenizer (document, content)) _ stored.indexer

/-- A document that could not be taken in leaves the portions as they are. -/
theorem fails_takeIn {document : DocumentId} {content : String} {failure : Failure}
    (h : Holds path settings portions workspace)
    (htake : Fails (takeIn document content) workspace failure later) :
    Holds path settings portions later := by
  unfold takeIn at htake
  rcases fails_of_bind htake with hcheck | ⟨_, checked, hcheck, hrest⟩
  · rw [fails_checkAccepting hcheck]
    exact h
  · rw [of_checkAccepting hcheck] at hrest
    replace hrest := Indexing.fails_indexer_bind hrest
    rcases fails_of_lift_bind hrest with rfl | ⟨tokens, -, hrest'⟩
    · exact h
    · rcases fails_of_bind hrest' with hstore | ⟨_, stored, -, hrest''⟩
      · obtain ⟨htidy, htouches, documents, hindexer⟩ := fails_storeContent h.tidy hstore
        exact holds_stored h htidy htouches hindexer
      · replace hrest'' := Indexing.fails_change_bind hrest''
        exact (Indexing.not_fails_change hrest'').elim

/-- As long as no batch is lost, what is held are the documents of the held portion. -/
structure HoldsAll (path : String) (settings : IndexSettings) (portions : Portions)
    (workspace : Workspace) : Prop extends Holds path settings portions workspace where
  pending : workspace.indexer.pending = portions.held.length

/-- Adding a document adds it to the portions. -/
theorem of_addDocument {document : DocumentId} {content : String} {result : Unit}
    (h : HoldsAll path settings portions workspace)
    (hadd : Yields (addDocument document content) workspace result later) :
    HoldsAll path settings
      (portions.add settings.batchSize (addition settings.tokenizer (document, content)))
      later := by
  rw [addDocument_eq] at hadd
  obtain ⟨_, taken, htake, hrest⟩ := of_bind hadd
  obtain ⟨hholds, hpending⟩ := of_takeIn h.toHolds htake
  have hheld : taken.indexer.pending =
      (portions.take (addition settings.tokenizer (document, content))).held.length := by
    rw [hpending, h.pending, Portions.take, List.length_append]
    rfl
  unfold writeIfFull at hrest
  replace hrest := Indexing.of_indexer_bind hrest
  rw [hholds.sameSettings, hheld] at hrest
  unfold Portions.add
  split at hrest
  · rename_i hfull
    rw [if_pos hfull]
    obtain ⟨⟨hclosed, common, hknows⟩, hindexer⟩ := of_writeBatch hholds hrest
    refine ⟨hclosed, ?_⟩
    unfold pending
    unfold Portions.close at hknows ⊢
    split at hindexer
    · rename_i htokens
      rw [if_pos htokens] at hknows ⊢
      rw [hknows.sample, hindexer]
      rfl
    · rename_i htokens
      rw [if_neg htokens]
      rw [← hheld, ← pending_chooseCommon taken.indexer, ← hindexer]
      rfl
  · rename_i hroom
    rw [if_neg hroom]
    obtain ⟨-, rfl⟩ := of_pure hrest
    exact ⟨hholds, hheld⟩

/-- A run adds all its documents to the portions. -/
theorem of_addDocuments {documents : List (DocumentId × String)} {result : Unit}
    (h : HoldsAll path settings portions workspace)
    (hrun : Yields (documents.forM fun (document, content) => addDocument document content)
      workspace result later) :
    HoldsAll path settings
      ((documents.map (addition settings.tokenizer)).foldl (Portions.add settings.batchSize)
        portions) later := by
  refine forM_induction (fun done now => HoldsAll path settings
    ((done.map (addition settings.tokenizer)).foldl (Portions.add settings.batchSize) portions) now)
    ?_ h hrun
  intro done document now next hnow hadd
  rw [List.map_append, List.foldl_append]
  exact of_addDocument hnow hadd

/-- A new index holds nothing. -/
theorem holds_create {disk disk' : Disk} {indexer : Indexer}
    (h : Yields (create path settings) disk indexer disk') :
    HoldsAll path settings {} { indexer, disk := disk' } := by
  obtain ⟨hseparate, documents, hname, rfl⟩ := of_create h
  refine ⟨⟨⟨hseparate, ?_⟩, rfl, rfl, fun common hcommon => hcommon, rfl, ?_, ?_⟩, rfl⟩
  · intro other hother
    cases hother
    exact hname
  · intro addition haddition
    cases haddition
  · cases hcommon : commonAtFirst settings.common with
    | none => exact Or.inl ⟨rfl, rfl, rfl, rfl⟩
    | some common =>
        exact Or.inr ⟨common, rfl, Batch.carries_nil rfl, rfl, List.Forall₂.nil⟩

end Indexer
end Concordance
