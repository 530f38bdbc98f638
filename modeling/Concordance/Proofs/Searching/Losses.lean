import Concordance.Proofs.Indexing.Calls
import Concordance.Proofs.Searching.Postings

/-!
# What failures lose

A document can be lost although adding it succeeded: when a later document fills the batch and the
batch cannot be written, all documents that are held go with it, and a commit afterwards succeeds
without them (`Indexer.acknowledged_lost`). Nothing else is lost: after a commit that succeeds a
searcher finds exactly the documents that are kept, and among these are all documents that were
taken in for which no such attempt failed (`Indexer.kept_found`).
-/

namespace Concordance

open Attempt

namespace Indexer

/-- What a run that goes on after failures writes fits into the numbers that are stored. -/
def LedgerSized (settings : IndexSettings) (ledger : Ledger) (workspace : Workspace) : Prop :=
  PortionsFit (ledger.portions settings.tokenizer).close.complete workspace.disk

variable {path : String} {settings : IndexSettings} {documents : List (DocumentId × String)}
  {disk : Disk} {workspace : Workspace} {outcomes : List Call}

/-- The lists of the portions that are written cover the places where units stand in the documents
that are kept. -/
theorem covers_kept (ledger : Ledger) (tokenizer : Tokenizer) (common : CommonTokens)
    (unit : String) :
    Covers ((union (streamsOf common (ledger.portions tokenizer).close.complete)).find? unit)
      fun x => ∃ document position,
        Posted tokenizer common ledger.kept unit document position ∧
          x = address document position := by
  have hfits : ∀ portion ∈ (ledger.portions tokenizer).close.complete,
      ∀ added ∈ portion, Batch.Fits added.2 := by
    intro portion hportion added hadded
    have hall : added ∈ ledger.kept.map (addition tokenizer) := by
      rw [← Ledger.all_portions, ← Portions.all_close]
      exact List.mem_append_left _ (List.mem_flatten.2 ⟨portion, hportion, hadded⟩)
    obtain ⟨document, -, rfl⟩ := List.mem_map.1 hall
    exact fits_indexedTokens tokenizer document.2
  rw [find?_union]
  refine (covers_streamsOf hfits unit).congr fun x => ?_
  rw [Portions.occursIn_close, Ledger.all_portions, occursIn_addition]

/-- A document that was taken in and is safe is kept. -/
theorem mem_kept (hlength : outcomes.length = documents.length) {index : Nat}
    {document : DocumentId × String} {call : Call} (hdocument : documents[index]? = some document)
    (hcall : outcomes[index]? = some call) (hsafe : call.Safe (outcomes.drop (index + 1))) :
    document ∈ (ledgerOf documents outcomes).kept := by
  have hentry : (documents.zip outcomes)[index]? = some (document, call) :=
    List.getElem?_zip_eq_some.2 ⟨hdocument, hcall⟩
  obtain ⟨hlt, hget⟩ := List.getElem?_eq_some_iff.1 hentry
  have hsplit : documents.zip outcomes = (documents.zip outcomes).take index ++
      (document, call) :: (documents.zip outcomes).drop (index + 1) := by
    rw [← hget, ← List.drop_eq_getElem_cons hlt, List.take_append_drop]
  have hlater : ((documents.zip outcomes).drop (index + 1)).map Prod.snd =
      outcomes.drop (index + 1) := by
    rw [List.map_drop, List.map_snd_zip (Nat.le_of_eq hlength)]
  rw [ledgerOf, hsplit]
  exact Ledger.mem_kept_of_safe {} _ _ (hlater ▸ hsafe)

/-- **What is kept is found.** Whatever fails on the disk while documents are added: after a commit
that succeeds, a searcher finds the packings of the documents that are kept. A document is kept if
it was taken in and the next attempt to write a batch, if there was one before the commit, did not
fail. -/
theorem kept_found (hbuild : buildAnyway path settings documents disk = .ok (outcomes, workspace))
    (hsized : LedgerSized settings (ledgerOf documents outcomes) workspace) :
    ∃ common, HoldsCommon workspace.disk common ∧
      (∀ searchPath searchSettings, ∃ searcher,
        Searcher.ofDisk workspace.disk searchPath searchSettings = .ok searcher ∧
          searcher.common = common ∧ searcher.Packs
            (Posted settings.tokenizer searcher.common (ledgerOf documents outcomes).kept)) ∧
      ∀ index document (call : Call), documents[index]? = some document →
        outcomes[index]? = some call → call.Safe (outcomes.drop (index + 1)) →
        document ∈ (ledgerOf documents outcomes).kept := by
  obtain ⟨hlength, common, hcommon, -, hcommitted⟩ := committed_of_buildAnyway hbuild
  refine ⟨common, hcommon, fun searchPath searchSettings => ?_,
    fun index document call => mem_kept hlength⟩
  obtain ⟨searcher, hopen, -, rfl, hfound⟩ :=
    Committed.searcher (hcommitted (hsized.batches common hcommon))
      (hsized.commonTokens common hcommon) hsized.postings searchPath searchSettings
  exact ⟨searcher, hopen, rfl, Searcher.packs_of_covers
    (covers_kept (ledgerOf documents outcomes) settings.tokenizer searcher.common)
    fun unit => (hfound unit).1⟩

/-! ## A lost document -/

/-- A disk that refuses one attempt, which is that of creating the first batch file. -/
def refusingDisk : Disk :=
  { (default : Disk) with refuses := fun attempt => attempt == 3 }

/-- Three documents, of which two are lost: the batch of the first two cannot be written, and the
third one is in a batch of its own. -/
theorem kept_found_after_loss :
    ∃ workspace,
      buildAnyway "index" (letterSettings 2) [(0, "ab"), (1, "c"), (2, "d")] refusingDisk =
        .ok ([.held, .lost .diskFault, .written], workspace) ∧
      ∃ searcher, Searcher.ofDisk workspace.disk "index" {} = .ok searcher ∧
        HoldsCommon workspace.disk searcher.common ∧
        searcher.Packs (Posted letters searcher.common [(2, "d")]) := by
  have hrun : (buildAnyway "index" (letterSettings 2) [(0, "ab"), (1, "c"), (2, "d")]
      refusingDisk).toOption.any (fun result =>
        decide (result.1 = [.held, .lost .diskFault, .written] ∧
          ClearlyFit ((ledgerOf [(0, "ab"), (1, "c"), (2, "d")]
            [.held, .lost .diskFault, .written]).portions letters).close.complete
            result.2.disk)) = true := by
    decide +kernel
  cases hbuild : buildAnyway "index" (letterSettings 2) [(0, "ab"), (1, "c"), (2, "d")]
      refusingDisk with
  | error failure =>
      rw [hbuild] at hrun
      cases hrun
  | ok result =>
      rw [hbuild] at hrun
      obtain ⟨outcomes, workspace⟩ := result
      obtain ⟨rfl, hfits⟩ := of_decide_eq_true hrun
      obtain ⟨common, hcommon, hfinds, -⟩ := kept_found hbuild hfits.portionsFit
      obtain ⟨searcher, hopen, rfl, hpacks⟩ := hfinds "index" {}
      exact ⟨workspace, rfl, searcher, hopen, hcommon, hpacks⟩

/-- Adding a document succeeds, adding the next one fails, and the commit succeeds. In the committed
index the first document has lost its token. -/
theorem acknowledged_lost :
    ∃ indexer started first second committed searcher,
      Yields (create "index" (letterSettings 2)) refusingDisk indexer started ∧
      Yields (addDocument 0 "b") { indexer, disk := started } () first ∧
      Fails (addDocument 1 "c") first .diskFault second ∧
      Yields commit second () committed ∧
      Searcher.ofDisk committed.disk "index" {} = .ok searcher ∧
      letters.tokens "b" = .ok ["b"] ∧ searcher.postings "b" = none := by
  have hrun : (buildAnyway "index" (letterSettings 2) [(0, "b"), (1, "c")]
      refusingDisk).toOption.any (fun result =>
        decide (result.1 = [.held, .lost .diskFault]) &&
          (Searcher.ofDisk result.2.disk "index" {}).toOption.any fun searcher =>
            decide (searcher.postings "b" = none)) = true := by
    decide +kernel
  cases hbuild : buildAnyway "index" (letterSettings 2) [(0, "b"), (1, "c")] refusingDisk with
  | error failure =>
      rw [hbuild] at hrun
      cases hrun
  | ok result =>
      rw [hbuild] at hrun
      obtain ⟨outcomes, committed⟩ := result
      obtain ⟨hdecided, hsearch⟩ := Bool.and_eq_true_iff.1 hrun
      have houtcomes : outcomes = [.held, .lost .diskFault] := of_decide_eq_true hdecided
      obtain ⟨indexer, started, added, hcreate, hcalls, hcommit⟩ := steps_of_buildAnyway hbuild
      rw [houtcomes, calls_cons, calls_cons, calls] at hcalls
      obtain ⟨hboth, hadded⟩ := Prod.mk.inj hcalls
      have hfirst := addDocument_call (0, "b") { indexer, disk := started }
      have hsecond := addDocument_call (1, "c")
        (call (0, "b") { indexer, disk := started }).2
      rw [(List.cons.inj hboth).1] at hfirst
      rw [(List.cons.inj (List.cons.inj hboth).2).1] at hsecond
      cases hopen : Searcher.ofDisk committed.disk "index" {} with
      | error failure =>
          dsimp only at hsearch
          rw [hopen] at hsearch
          cases hsearch
      | ok searcher =>
          dsimp only at hsearch
          rw [hopen] at hsearch
          refine ⟨indexer, started, _, _, committed, searcher, hcreate, hfirst, hsecond, ?_, hopen,
            by decide +kernel, of_decide_eq_true hsearch⟩
          rw [← hadded] at hcommit
          exact hcommit

end Indexer
end Concordance
