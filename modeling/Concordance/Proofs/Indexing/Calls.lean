import Concordance.Proofs.Indexing.Commit

/-!
# Runs that go on after failures

An indexer that could not add a document still takes the next one. What became of each document is
told by a `Call`, and all of them together tell where the documents are (`Ledger`). The portions of
the ledger are what the workspace stands for after any run (`Indexer.holds_calls`): a document that
was taken in leaves them only when a batch with it cannot be written.
-/

namespace Concordance

open Attempt

/-! ## Calls -/

/-- What became of a document that was to be added. -/
inductive Call where
  /-- The document was not taken in. -/
  | refused (failure : Failure)
  /-- The document was taken in and is held in memory. -/
  | held
  /-- The document was taken in, and a batch with all that was held was written. -/
  | written
  /-- The document was taken in, but the batch with all that was held could not be written. -/
  | lost (failure : Failure)
deriving DecidableEq, Repr

namespace Call

/-- What adding the document yields. -/
def outcome : Call → Except Failure Unit
  | refused failure => .error failure
  | held => .ok ()
  | written => .ok ()
  | lost failure => .error failure

/-- Whether the writing of a batch was tried. -/
def settles : Call → Bool
  | refused _ => false
  | held => false
  | written => true
  | lost _ => true

/-- A document that was taken in is safe, given the later calls, unless the next attempt to write a
batch fails. -/
def Safe (call : Call) (later : List Call) : Prop :=
  call.outcome = .ok () ∧ ∀ failure, (call :: later).find? settles ≠ some (.lost failure)

end Call

/-- The documents of a run that are in batch files, by portion, and those that are held. -/
structure Ledger where
  complete : List (List (DocumentId × String)) := []
  held : List (DocumentId × String) := []

namespace Ledger

/-- Enter a document and what became of it. -/
def record (ledger : Ledger) (document : DocumentId × String) : Call → Ledger
  | .refused _ => ledger
  | .held => { ledger with held := ledger.held ++ [document] }
  | .written => { complete := ledger.complete ++ [ledger.held ++ [document]] }
  | .lost _ => { ledger with held := [] }

/-- Enter documents one after another. -/
def recordAll (ledger : Ledger) (entries : List ((DocumentId × String) × Call)) : Ledger :=
  entries.foldl (fun ledger entry => ledger.record entry.1 entry.2) ledger

/-- All documents that are not lost. -/
def kept (ledger : Ledger) : List (DocumentId × String) :=
  ledger.complete.flatten ++ ledger.held

/-- The portions as they are taken into batches. -/
def portions (ledger : Ledger) (tokenizer : Tokenizer) : Portions where
  complete := ledger.complete.map (List.map (Indexer.addition tokenizer))
  held := ledger.held.map (Indexer.addition tokenizer)

/-- The documents of all portions are those that the ledger kept. -/
theorem all_portions (ledger : Ledger) (tokenizer : Tokenizer) :
    (ledger.portions tokenizer).all = ledger.kept.map (Indexer.addition tokenizer) := by
  rw [Portions.all, portions, kept, List.map_append, List.map_flatten]

/-! ## What is kept -/

variable {document : DocumentId × String}

/-- What is in a batch file stays there. -/
theorem complete_record {ledger : Ledger} (h : document ∈ ledger.complete.flatten)
    (other : DocumentId × String) (call : Call) :
    document ∈ (ledger.record other call).complete.flatten := by
  cases call with
  | refused failure => exact h
  | held => exact h
  | written =>
      rw [record, List.flatten_append]
      exact List.mem_append_left _ h
  | lost failure => exact h

/-- A document that is in a batch file remains there, whatever is added later. -/
theorem complete_recordAll {ledger : Ledger} (h : document ∈ ledger.complete.flatten)
    (entries : List ((DocumentId × String) × Call)) :
    document ∈ (ledger.recordAll entries).complete.flatten := by
  induction entries generalizing ledger with
  | nil => exact h
  | cons entry entries ih => exact ih (complete_record h entry.1 entry.2)

/-- What is held is kept unless the next attempt to write a batch fails. -/
theorem mem_kept_of_held {ledger : Ledger} (h : document ∈ ledger.held)
    {entries : List ((DocumentId × String) × Call)}
    (hnext : ∀ failure, (entries.map Prod.snd).find? Call.settles ≠ some (.lost failure)) :
    document ∈ (ledger.recordAll entries).kept := by
  induction entries generalizing ledger with
  | nil => exact List.mem_append_right _ h
  | cons entry entries ih =>
      obtain ⟨other, call⟩ := entry
      cases call with
      | refused failure => exact ih h hnext
      | held =>
          have hheld : document ∈ (ledger.record other .held).held := List.mem_append_left _ h
          exact ih hheld hnext
      | written =>
          have hcomplete : document ∈ (ledger.record other .written).complete.flatten := by
            rw [record, List.flatten_append, List.flatten_singleton]
            exact List.mem_append_right _ (List.mem_append_left _ h)
          exact List.mem_append_left _ (complete_recordAll hcomplete entries)
      | lost failure => exact absurd rfl (hnext failure)

/-- A document that was taken in and is safe is kept. -/
theorem mem_kept_of_safe (ledger : Ledger) (before after : List ((DocumentId × String) × Call))
    {call : Call} (h : call.Safe (after.map Prod.snd)) :
    document ∈ (ledger.recordAll (before ++ (document, call) :: after)).kept := by
  rw [recordAll, List.foldl_append]
  generalize before.foldl (fun ledger entry => ledger.record entry.1 entry.2) ledger = middle
  obtain ⟨houtcome, hnext⟩ := h
  cases call with
  | refused failure => cases houtcome
  | held =>
      have hheld : document ∈ (middle.record document .held).held :=
        List.mem_append_right _ List.mem_cons_self
      exact mem_kept_of_held hheld hnext
  | written =>
      have hcomplete : document ∈ (middle.record document .written).complete.flatten := by
        rw [record, List.flatten_append, List.flatten_singleton]
        exact List.mem_append_right _ (List.mem_append_right _ List.mem_cons_self)
      exact List.mem_append_left _ (complete_recordAll hcomplete after)
  | lost failure => cases houtcome

end Ledger

/-! ## Runs -/

namespace Indexer

/-- Add a document, and tell what became of it. -/
def call (document : DocumentId × String) (workspace : Workspace) : Call × Workspace :=
  match addDocument document.1 document.2 workspace with
  | (.ok _, later) =>
      (if later.indexer.batchFiles = workspace.indexer.batchFiles then .held else .written, later)
  | (.error failure, later) =>
      (if (takeIn document.1 document.2 workspace).1.isOk then .lost failure else .refused failure,
        later)

/-- Add documents one after another, whatever becomes of them. -/
def calls : List (DocumentId × String) → Workspace → List Call × Workspace
  | [], workspace => ([], workspace)
  | document :: documents, workspace =>
      let (first, between) := call document workspace
      let (others, later) := calls documents between
      (first :: others, later)

/-- Documents are added one after another, the first one first. -/
theorem calls_cons (document : DocumentId × String) (documents : List (DocumentId × String))
    (workspace : Workspace) :
    calls (document :: documents) workspace =
      ((call document workspace).1 :: (calls documents (call document workspace).2).1,
        (calls documents (call document workspace).2).2) :=
  rfl

/-- Telling what became of a document changes nothing about adding it. -/
theorem addDocument_call (document : DocumentId × String) (workspace : Workspace) :
    addDocument document.1 document.2 workspace =
      ((call document workspace).1.outcome, (call document workspace).2) := by
  unfold call
  rcases addDocument document.1 document.2 workspace with ⟨failure | _, later⟩
  · dsimp only
    split
    · rfl
    · rfl
  · dsimp only
    split
    · rfl
    · rfl

/-- The ways in which a call goes. -/
theorem call_cases (document : DocumentId × String) (workspace : Workspace) :
    (∃ failure later, Fails (takeIn document.1 document.2) workspace failure later ∧
        call document workspace = (.refused failure, later)) ∨
      ∃ taken, Yields (takeIn document.1 document.2) workspace () taken ∧
        ((∃ failure later, Fails writeIfFull taken failure later ∧
            call document workspace = (.lost failure, later)) ∨
          ∃ later, Yields writeIfFull taken () later ∧
            call document workspace =
              (if later.indexer.batchFiles = workspace.indexer.batchFiles then .held else .written,
                later)) := by
  rcases htake : takeIn document.1 document.2 workspace with ⟨failure | _, taken⟩
  · refine Or.inl ⟨failure, taken, htake, ?_⟩
    rw [call, addDocument_eq, bind_of_fails htake]
    dsimp only
    rw [htake]
    rfl
  · refine Or.inr ⟨taken, htake, ?_⟩
    have hadd : addDocument document.1 document.2 workspace = writeIfFull taken := by
      rw [addDocument_eq, bind_of_yields htake]
    rcases hwrite : writeIfFull taken with ⟨failure | _, later⟩
    · refine Or.inl ⟨failure, later, hwrite, ?_⟩
      rw [call, hadd, hwrite]
      dsimp only
      rw [htake]
      rfl
    · refine Or.inr ⟨later, hwrite, ?_⟩
      rw [call, hadd, hwrite]

variable {path : String} {settings : IndexSettings} {ledger : Ledger} {workspace : Workspace}

/-- The batch is written if it is full, which closes the held portion, and otherwise nothing
happens. -/
theorem of_writeIfFull {portions : Portions} {result : Unit} {later : Workspace}
    (h : Holds path settings portions workspace)
    (hwrite : Yields writeIfFull workspace result later) :
    (later.indexer.batchFiles = workspace.indexer.batchFiles ∧
        Holds path settings portions later) ∨
      (later.indexer.batchFiles ≠ workspace.indexer.batchFiles ∧
        Portions.hasTokens portions.held = true ∧ Holds path settings portions.close later) := by
  unfold writeIfFull at hwrite
  replace hwrite := Indexing.of_indexer_bind hwrite
  split at hwrite
  · obtain ⟨⟨hholds, -⟩, hindexer⟩ := of_writeBatch h hwrite
    split at hindexer
    · rename_i htokens
      refine Or.inr ⟨?_, htokens, hholds⟩
      rw [hindexer, filed, batchFiles_chooseCommon]
      exact fun heq => List.cons_ne_nil _ _ (List.append_right_eq_self.1 heq)
    · rename_i htokens
      have hclose : portions.close = portions := if_neg htokens
      rw [hclose] at hholds
      rw [hindexer, batchFiles_chooseCommon]
      exact Or.inl ⟨rfl, hholds⟩
  · obtain ⟨-, rfl⟩ := of_pure hwrite
    exact Or.inl ⟨rfl, h⟩

/-- A full batch that cannot be written is lost with all that is held. -/
theorem fails_writeIfFull {portions : Portions} {failure : Failure} {later : Workspace}
    (h : Holds path settings portions workspace)
    (hwrite : Fails writeIfFull workspace failure later) :
    Holds path settings portions.drop later := by
  unfold writeIfFull at hwrite
  replace hwrite := Indexing.fails_indexer_bind hwrite
  split at hwrite
  · exact fails_writeBatch h hwrite
  · exact (not_fails_pure hwrite).elim

/-- Whatever becomes of a document, the workspace stands for the ledger in which it is entered. -/
theorem holds_call (h : Holds path settings (ledger.portions settings.tokenizer) workspace)
    (document : DocumentId × String) :
    Holds path settings
      ((ledger.record document (call document workspace).1).portions settings.tokenizer)
      (call document workspace).2 := by
  rcases call_cases document workspace with ⟨failure, later, htake, hcall⟩ | ⟨taken, htake, hcall⟩
  · rw [hcall]
    exact fails_takeIn h htake
  · obtain ⟨htaken, -⟩ := of_takeIn h htake
    have hsame : taken.indexer.batchFiles = workspace.indexer.batchFiles :=
      htaken.names.trans h.names.symm
    have hheld : (ledger.record document .held).portions settings.tokenizer =
        (ledger.portions settings.tokenizer).take (addition settings.tokenizer document) := by
      rw [Ledger.record, Ledger.portions, Ledger.portions, Portions.take, List.map_append]
      rfl
    rcases hcall with ⟨failure, later, hwrite, hcall⟩ | ⟨later, hwrite, hcall⟩
    · rw [hcall]
      exact fails_writeIfFull htaken hwrite
    · rw [hcall, ← hsame]
      rcases of_writeIfFull htaken hwrite with ⟨hfiles, hholds⟩ | ⟨hfiles, htokens, hholds⟩
      · rw [if_pos hfiles, hheld]
        exact hholds
      · have hwritten : (ledger.record document .written).portions settings.tokenizer =
            ((ledger.portions settings.tokenizer).take
              (addition settings.tokenizer document)).close := by
          rw [Portions.close, if_pos htokens]
          simp [Ledger.record, Ledger.portions, Portions.take]
        rw [if_neg hfiles, hwritten]
        exact hholds

/-- The ledger of a run. -/
def ledgerOf (documents : List (DocumentId × String)) (outcomes : List Call) : Ledger :=
  Ledger.recordAll {} (documents.zip outcomes)

/-- Every document is called for once, also after failures. -/
theorem length_calls (documents : List (DocumentId × String)) (workspace : Workspace) :
    (calls documents workspace).1.length = documents.length := by
  induction documents generalizing workspace with
  | nil => rfl
  | cons document documents ih =>
      exact congrArg Nat.succ (ih (call document workspace).2)

/-- After any run, the workspace stands for the ledger of this run. -/
theorem holds_calls (h : Holds path settings (ledger.portions settings.tokenizer) workspace)
    (documents : List (DocumentId × String)) :
    Holds path settings
      ((ledger.recordAll (documents.zip (calls documents workspace).1)).portions
        settings.tokenizer)
      (calls documents workspace).2 := by
  induction documents generalizing ledger workspace with
  | nil => exact h
  | cons document documents ih => exact ih (holds_call h document)

/-- Create an index in the directory of a disk, add documents, going on whatever becomes of each of
them, and commit. Yields what became of the documents and the workspace that is left if the index
was created and the commit succeeded. -/
def buildAnyway (path : String) (settings : IndexSettings) (documents : List (DocumentId × String))
    (disk : Disk) : Except Failure (List Call × Workspace) :=
  match create path settings disk with
  | (.ok indexer, disk) =>
      let (outcomes, workspace) := calls documents { indexer, disk }
      match commit workspace with
      | (.ok _, workspace) => .ok (outcomes, workspace)
      | (.error failure, _) => .error failure
  | (.error failure, _) => .error failure

/-- A build that goes on after failures consists of creating an index, adding the documents one by
one, and a commit. -/
theorem steps_of_buildAnyway {documents : List (DocumentId × String)} {disk : Disk}
    {outcomes : List Call}
    (h : buildAnyway path settings documents disk = .ok (outcomes, workspace)) :
    ∃ indexer started added, Yields (create path settings) disk indexer started ∧
      calls documents { indexer, disk := started } = (outcomes, added) ∧
      Yields commit added () workspace := by
  unfold buildAnyway at h
  rcases hcreate : create path settings disk with ⟨failure | indexer, started⟩
  · rw [hcreate] at h
    cases h
  · rw [hcreate] at h
    rcases hrun : calls documents { indexer, disk := started } with ⟨others, added⟩
    dsimp only at h
    rw [hrun] at h
    rcases hcommit : commit added with ⟨failure | _, committed⟩
    · rw [hcommit] at h
      cases h
    · rw [hcommit] at h
      cases h
      exact ⟨indexer, started, added, hcreate, hrun, hcommit⟩

/-- A commit that succeeds leaves the merge of the batches of all portions that were not lost. -/
theorem committed_of_buildAnyway {documents : List (DocumentId × String)} {disk : Disk}
    {outcomes : List Call}
    (h : buildAnyway path settings documents disk = .ok (outcomes, workspace)) :
    outcomes.length = documents.length ∧
    ∃ common, HoldsCommon workspace.disk common ∧
      (∀ first, commonAtFirst settings.common = some first → common = first) ∧
      ((∀ portion ∈ ((ledgerOf documents outcomes).portions settings.tokenizer).close.complete,
          (Batch.ofAdditions common portion).Countable) →
        Committed common
          (mergedOf common
            ((ledgerOf documents outcomes).portions settings.tokenizer).close.complete)
          workspace.disk) := by
  obtain ⟨indexer, started, added, hcreate, hrun, hcommit⟩ := steps_of_buildAnyway h
  have hholds := @holds_calls path settings {} _ (holds_create hcreate).toHolds documents
  have hlength := length_calls documents { indexer, disk := started }
  rw [hrun] at hholds hlength
  obtain ⟨common, hcommon, hfirst, -, -, hcommitted⟩ := of_commit hholds hcommit
  exact ⟨hlength, common, hcommon, hfirst, hcommitted⟩

end Indexer
end Concordance
