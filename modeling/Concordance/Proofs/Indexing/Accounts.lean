import Concordance.Proofs.Indexing.Commit
import Concordance.Proofs.Storage.IndexStatistics

/-!
# What an indexer has counted

Only taking a document in changes what an indexer tells about the documents that were added
(`Indexer.accounts_of_takeIn`); all other steps leave it as it is, whether they succeed or fail
(`Keeps`). Hence an index of documents, repeated or not, has the number of the different ones in its
statistics (`Indexer.counts_of_build`).
-/

namespace Concordance

open Attempt

/-! ## Steps that count nothing -/

/-- What an indexer tells about the documents that were added. -/
def Indexer.accounts (indexer : Indexer) : List DocumentId × DocumentLengths × IndexStatistics :=
  (indexer.known, indexer.lengths, indexer.statistics)

/-- What the indexer of a workspace tells about the documents that were added. -/
def Workspace.accounts (workspace : Workspace) :
    List DocumentId × DocumentLengths × IndexStatistics :=
  workspace.indexer.accounts

namespace Indexing

variable {α β : Type}

/-- What is done on the disk counts nothing. -/
theorem keeps_onDisk (action : OnDisk α) : Keeps Workspace.accounts (onDisk action) :=
  fun _ => rfl

/-- A change counts nothing if the indexer tells the same before and after it. -/
theorem keeps_change {f : Indexer → Indexer}
    (h : ∀ indexer, (f indexer).accounts = indexer.accounts) :
    Keeps Workspace.accounts (change f) :=
  fun workspace => h workspace.indexer

/-- A change that counts nothing may stand before steps that count nothing. -/
theorem keeps_change_bind {f : Indexer → Indexer} {next : Unit → Indexing β}
    (h : ∀ indexer, (f indexer).accounts = indexer.accounts)
    (hnext : Keeps Workspace.accounts (next ())) : Keeps Workspace.accounts (change f >>= next) :=
  (keeps_change h).bind fun _ => hnext

/-- Looking at the indexer counts nothing by itself. -/
theorem keeps_indexer_bind {next : Indexer → Indexing β}
    (h : ∀ indexer, Keeps Workspace.accounts (next indexer)) :
    Keeps Workspace.accounts (indexer >>= next) :=
  Keeps.bind (fun _ => rfl) h

end Indexing

namespace Indexer

open Indexing

/-- Choosing the common tokens counts nothing. -/
theorem accounts_chooseCommon (indexer : Indexer) :
    (chooseCommon indexer).accounts = indexer.accounts := by
  unfold chooseCommon
  split
  · rfl
  · rfl

/-- Collecting the tokens of a document does not count it. -/
theorem accounts_collect (document : DocumentId) (tokens : List String) (indexer : Indexer) :
    (collect document tokens indexer).accounts = indexer.accounts := by
  unfold collect
  split
  · rfl
  · rfl

/-- Asking whether documents are accepted counts nothing. -/
theorem keeps_checkAccepting : Keeps Workspace.accounts checkAccepting := by
  unfold checkAccepting
  refine keeps_indexer_bind fun indexer => ?_
  split
  · exact keeps_throw _
  · exact keeps_pure _

/-- Storing the text of a document does not count it. -/
theorem keeps_storeContent (document : DocumentId) (content : String) :
    Keeps Workspace.accounts (storeContent document content) := by
  unfold storeContent
  refine keeps_indexer_bind fun indexer => ?_
  split
  · exact keeps_pure _
  · refine (keeps_onDisk _).bind fun _ => ?_
    refine keeps_change_bind (fun _ => rfl) ?_
    refine (keeps_onDisk _).bind fun _ => ?_
    exact keeps_change fun _ => rfl

/-- Writing a batch counts nothing. -/
theorem keeps_writeBatch : Keeps Workspace.accounts writeBatch := by
  unfold writeBatch
  refine keeps_change_bind accounts_chooseCommon ?_
  refine keeps_indexer_bind fun indexer => ?_
  dsimp only
  split
  · refine keeps_change_bind (fun _ => rfl) ?_
    refine (keeps_onDisk _).bind fun _ => ?_
    refine (keeps_lift _).bind fun _ => ?_
    refine (keeps_onDisk _).bind fun _ => ?_
    exact keeps_change fun _ => rfl
  · exact keeps_pure _

/-- Writing a batch that is full counts nothing. -/
theorem keeps_writeIfFull : Keeps Workspace.accounts writeIfFull := by
  unfold writeIfFull
  refine keeps_indexer_bind fun indexer => ?_
  split
  · exact keeps_writeBatch
  · exact keeps_pure _

/-- Merging the batches counts nothing. -/
theorem keeps_finish : Keeps Workspace.accounts finish := by
  unfold finish
  refine keeps_writeBatch.bind fun _ => ?_
  refine keeps_indexer_bind fun indexer => ?_
  refine keeps_change_bind (fun _ => rfl) ?_
  refine (keeps_onDisk _).bind fun _ => ?_
  refine (keeps_lift _).bind fun _ => ?_
  refine (keeps_onDisk _).bind fun _ => ?_
  refine keeps_change_bind (fun _ => rfl) ?_
  refine (keeps_forM (fun _ => keeps_onDisk _) _).bind fun _ => ?_
  refine (keeps_onDisk _).bind fun _ => ?_
  split
  · refine (keeps_onDisk _).bind fun _ => ?_
    refine (keeps_lift _).bind fun _ => ?_
    exact keeps_onDisk _
  · refine keeps_change_bind (fun _ => rfl) ?_
    refine (keeps_onDisk _).bind fun _ => ?_
    refine (keeps_onDisk _).bind fun _ => ?_
    refine (keeps_lift _).bind fun _ => ?_
    exact keeps_onDisk _

/-- A commit counts nothing. -/
theorem keeps_commit : Keeps Workspace.accounts commit := by
  unfold commit
  refine keeps_checkAccepting.bind fun _ => ?_
  refine keeps_change_bind (fun _ => rfl) ?_
  exact keeps_finish.bind fun _ => keeps_change fun _ => rfl

/-! ## Taking a document in -/

variable {workspace later : Workspace} {document : DocumentId} {content : String}

/-- What is counted depends on nothing but what was counted before. -/
theorem accounts_account {indexer other : Indexer} (h : other.accounts = indexer.accounts)
    (document : DocumentId) (length : UInt32) :
    (account document length other).accounts = (account document length indexer).accounts := by
  obtain ⟨hknown, hrest⟩ := Prod.mk.inj h
  obtain ⟨hlengths, hstatistics⟩ := Prod.mk.inj hrest
  unfold accounts account
  rw [hknown, hlengths, hstatistics]

/-- A document that is taken in is counted with the number of its tokens that are indexed. -/
theorem accounts_of_takeIn {result : Unit}
    (h : Yields (takeIn document content) workspace result later) :
    later.accounts = (account document
      (indexedTokens workspace.indexer.settings.tokenizer content).length.toUInt32
      workspace.indexer).accounts := by
  unfold takeIn at h
  obtain ⟨_, checked, hcheck, hrest⟩ := of_bind h
  rw [of_checkAccepting hcheck] at hrest
  replace hrest := of_indexer_bind hrest
  obtain ⟨tokens, htokens, hrest'⟩ := of_lift_bind hrest
  obtain ⟨_, stored, hstore, hrest''⟩ := of_bind hrest'
  replace hrest'' := of_change_bind hrest''
  obtain rfl := of_change hrest''
  rw [indexedTokens, htokens]
  exact (accounts_collect document _ _).trans
    (accounts_account ((keeps_storeContent document content).of_yields hstore) document _)

/-- A document that is not taken in is not counted. -/
theorem accounts_of_fails_takeIn {failure : Failure}
    (h : Fails (takeIn document content) workspace failure later) :
    later.accounts = workspace.accounts := by
  unfold takeIn at h
  rcases fails_of_bind h with hcheck | ⟨_, checked, hcheck, hrest⟩
  · exact keeps_checkAccepting.of_fails hcheck
  · rw [of_checkAccepting hcheck] at hrest
    replace hrest := fails_indexer_bind hrest
    rcases fails_of_lift_bind hrest with rfl | ⟨tokens, -, hrest'⟩
    · rfl
    · rcases fails_of_bind hrest' with hstore | ⟨_, stored, -, hrest''⟩
      · exact (keeps_storeContent document content).of_fails hstore
      · exact (not_fails_change (fails_change_bind hrest'')).elim

/-! ## Counting documents -/

/-- An indexer knows exactly these documents and has counted each of them once. -/
structure Counts (documents : List DocumentId) (indexer : Indexer) : Prop where
  nodup : indexer.known.Nodup
  mem_iff : ∀ document, document ∈ indexer.known ↔ document ∈ documents
  documents : indexer.statistics.documents = indexer.known.length.toUInt32

/-- An indexer that has taken nothing in counts no documents. -/
theorem counts_nil {indexer : Indexer} (hknown : indexer.known = [])
    (hstatistics : indexer.statistics = {}) : Counts [] indexer := by
  refine ⟨?_, fun document => ?_, ?_⟩
  · rw [hknown]
    exact List.nodup_nil
  · rw [hknown]
  · rw [hknown, hstatistics]
    rfl

/-- Only the accounts of an indexer tell which documents it counts. -/
theorem Counts.congr {documents : List DocumentId} {indexer other : Indexer}
    (h : Counts documents indexer) (haccounts : other.accounts = indexer.accounts) :
    Counts documents other := by
  obtain ⟨hknown, hrest⟩ := Prod.mk.inj haccounts
  obtain ⟨-, hstatistics⟩ := Prod.mk.inj hrest
  refine ⟨?_, fun document => ?_, ?_⟩
  · rw [hknown]
    exact h.nodup
  · rw [hknown]
    exact h.mem_iff document
  · rw [hknown, hstatistics]
    exact h.documents

/-- A document is counted unless it was known. -/
theorem Counts.account {documents : List DocumentId} {indexer : Indexer}
    (h : Counts documents indexer) (document : DocumentId) (length : UInt32) :
    Counts (documents ++ [document]) (account document length indexer) := by
  cases hknown : indexer.known.contains document with
  | true =>
      have hmem := List.contains_iff_mem.1 hknown
      refine ⟨?_, fun other => ?_, ?_⟩
      · simp only [Indexer.account, hknown, if_true]
        exact h.nodup
      · simp only [Indexer.account, hknown, if_true]
        rw [List.mem_append, List.mem_singleton, ← h.mem_iff]
        exact ⟨Or.inl, fun hor => hor.elim id fun heq => heq ▸ hmem⟩
      · simp only [Indexer.account, hknown, if_true]
        exact h.documents
  | false =>
      have hnew : document ∉ indexer.known := fun hmem => by
        rw [List.contains_iff_mem.2 hmem] at hknown
        cases hknown
      refine ⟨?_, fun other => ?_, ?_⟩
      · simp only [Indexer.account, hknown, Bool.false_eq_true, if_false]
        exact List.nodup_cons.2 ⟨hnew, h.nodup⟩
      · simp only [Indexer.account, hknown, Bool.false_eq_true, if_false]
        rw [List.mem_append, List.mem_singleton, ← h.mem_iff, List.mem_cons]
        exact or_comm
      · simp only [Indexer.account, hknown, Bool.false_eq_true, if_false]
        rw [h.documents, List.length_cons]
        exact (UInt32.ofNat_add _ 1).symm

variable {path : String} {settings : IndexSettings} {documents : List (DocumentId × String)}
  {disk : Disk}

/-- A document that was added is counted in addition to those before it. -/
theorem Counts.addDocument {known : List DocumentId} (h : Counts known workspace.indexer)
    {result : Unit} (hadd : Yields (addDocument document content) workspace result later) :
    Counts (known ++ [document]) later.indexer := by
  rw [addDocument_eq] at hadd
  obtain ⟨_, taken, htake, hrest⟩ := of_bind hadd
  exact (h.account document _).congr
    ((keeps_writeIfFull.of_yields hrest).trans (accounts_of_takeIn htake))

/-- A run has counted its documents. -/
theorem counts_of_build (h : build path settings documents disk = .ok workspace) :
    Counts (documents.map (·.1)) workspace.indexer := by
  obtain ⟨indexer, started, added, hcreate, hadd, hcommit⟩ := steps_of_build h
  obtain ⟨-, contents, -, rfl⟩ := of_create hcreate
  have hcounts := forM_induction
    (fun done now => Counts (done.map (·.1)) now.indexer) (by
      intro done added now next hnow hstep
      rw [List.map_append]
      exact hnow.addDocument hstep)
    (counts_nil rfl rfl) hadd
  exact hcounts.congr (keeps_commit.of_yields hcommit)

end Indexer
end Concordance
