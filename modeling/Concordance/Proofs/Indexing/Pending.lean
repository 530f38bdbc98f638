import Concordance.Proofs.Indexing.Run

/-!
# How many documents are pending

A batch is written as soon as it has enough documents, but not if none of them has a token: then the
documents stay in memory, and each call tries again (`Portions.Bounded`). So there is no bound on
what is pending after a run (`Indexer.pending_exact`), as a single document shows
(`Indexer.full_batch_pending`).
-/

namespace Concordance

open Attempt

namespace Portions

/-- The portions of a run without failures. A portion that was written has the documents of one
batch, or more if all but the last one are without tokens. The one that is held has less, or is
without tokens. -/
structure Bounded (size : Nat) (portions : Portions) : Prop where
  complete : ∀ portion ∈ portions.complete, size ≤ portion.length ∧ hasTokens portion = true ∧
    (portion.length = size ∨ hasTokens portion.dropLast = false)
  held : portions.held.length < size ∨ hasTokens portions.held = false

/-- Another document keeps the bounds. -/
theorem Bounded.add {size : Nat} {portions : Portions} (h : Bounded size portions)
    (addition : Addition) : Bounded size (portions.add size addition) := by
  have hlength : (portions.take addition).held.length = portions.held.length + 1 :=
    List.length_append
  unfold Portions.add
  split
  · rename_i hfull
    unfold close
    split
    · rename_i htokens
      refine ⟨?_, Or.inr rfl⟩
      intro portion hportion
      rcases List.mem_append.1 hportion with hold | hnew
      · exact h.complete portion hold
      · -- the portion was not full before, or it was full without a token
        rw [List.mem_singleton.1 hnew]
        refine ⟨hfull, htokens, ?_⟩
        rcases h.held with hroom | hnone
        · exact Or.inl (by omega)
        · refine Or.inr ?_
          rw [take, List.dropLast_concat]
          exact hnone
    · rename_i htokens
      exact ⟨h.complete, Or.inr (by simpa using htokens)⟩
  · rename_i hroom
    exact ⟨h.complete, Or.inl (Nat.lt_of_not_le hroom)⟩

/-- The portions of any run are bounded. -/
theorem bounded_foldl (size : Nat) (additions : List Addition) :
    Bounded size (additions.foldl (Portions.add size) {}) := by
  suffices hgeneral : ∀ portions, Bounded size portions →
      Bounded size (additions.foldl (Portions.add size) portions) from
    hgeneral {} ⟨fun portion hportion => absurd hportion List.not_mem_nil, Or.inr rfl⟩
  induction additions with
  | nil => exact fun portions h => h
  | cons addition rest ih => exact fun portions h => ih _ (h.add addition)

/-- The documents that are held are the last ones. -/
theorem drop_all (portions : Portions) :
    portions.all.drop (portions.all.length - portions.held.length) = portions.held := by
  rw [all, List.length_append, Nat.add_sub_cancel, List.drop_left]

end Portions

namespace Indexer

variable {path : String} {settings : IndexSettings} {disk started : Disk} {indexer : Indexer}
  {documents : List (DocumentId × String)} {workspace : Workspace}

/-- **What is pending is less than a batch, or has no tokens.** After any number of calls that all
succeeded, the documents are divided into portions: each of the complete ones is in a batch file,
and the documents of the last one are pending. -/
theorem pending_exact (hcreate : Yields (create path settings) disk indexer started)
    (hrun : Yields (documents.forM fun (document, content) => addDocument document content)
      { indexer, disk := started } () workspace) :
    (workspace.indexer.pending < settings.batchSize ∨
      ∀ document ∈ documents.drop (documents.length - workspace.indexer.pending),
        indexedTokens settings.tokenizer document.2 = []) ∧
    ∃ portions : Portions, Holds path settings portions workspace ∧
      portions.all = documents.map (addition settings.tokenizer) ∧
      workspace.indexer.pending = portions.held.length ∧
      portions.Bounded settings.batchSize := by
  have hholds := of_addDocuments (holds_create hcreate) hrun
  have hall := Portions.all_foldl settings.batchSize
    (documents.map (addition settings.tokenizer)) {}
  have hbounded := Portions.bounded_foldl settings.batchSize
    (documents.map (addition settings.tokenizer))
  generalize (documents.map (addition settings.tokenizer)).foldl
    (Portions.add settings.batchSize) {} = portions at hholds hall hbounded
  change portions.all = documents.map (addition settings.tokenizer) at hall
  refine ⟨hbounded.held.imp ?_ ?_, portions, hholds.toHolds, hall, hholds.pending, hbounded⟩
  · intro hroom
    rw [hholds.pending]
    exact hroom
  · intro hnone document hdocument
    have hheld := portions.drop_all
    rw [hall, List.length_map, ← hholds.pending, ← List.map_drop] at hheld
    exact Portions.hasTokens_eq_false.1 hnone _ (hheld ▸ List.mem_map_of_mem hdocument)

/-- A run is found by computing it. -/
theorem exists_of_run {calls : Indexing Unit} {finds : Workspace → Bool}
    (h : (match create path settings disk with
      | (.ok indexer, started) =>
          match calls { indexer, disk := started } with
          | (.ok _, workspace) => finds workspace
          | _ => false
      | _ => false) = true) :
    ∃ indexer started workspace, Yields (create path settings) disk indexer started ∧
      Yields calls { indexer, disk := started } () workspace ∧ finds workspace = true := by
  split at h
  · rename_i indexer started hcreate
    split at h
    · rename_i workspace hrun
      exact ⟨indexer, started, workspace, hcreate, hrun, h⟩
    · cases h
  · cases h

/-- Five documents, of which only the third one has a token. -/
def quietDocuments : List (DocumentId × String) :=
  [(0, ""), (1, ""), (2, "a"), (3, ""), (4, "")]

/-- The first three documents are written as one batch when the third one comes. The two that follow
are pending, although two documents make up a batch. -/
theorem pending_exact_quiet :
    ∃ indexer started workspace,
      Yields (create "index" { batchSize := 2 }) {} indexer started ∧
      Yields (quietDocuments.forM fun (document, content) =>
        addDocument document content) { indexer, disk := started } () workspace ∧
      workspace.indexer.pending = 2 ∧
      (∀ document ∈ quietDocuments.drop 3, indexedTokens Tokenizer.words document.2 = []) ∧
      ∃ portions : Portions, Holds "index" { batchSize := 2 } portions workspace ∧
        portions.held.length = 2 ∧ portions.Bounded 2 := by
  obtain ⟨indexer, started, workspace, hcreate, hadd, hpending⟩ :=
    @exists_of_run "index" { batchSize := 2 } {}
      (quietDocuments.forM fun (document, content) => addDocument document content)
      (fun workspace => workspace.indexer.pending = 2) (by decide +kernel)
  replace hpending := of_decide_eq_true hpending
  obtain ⟨hsmall, portions, hholds, -, hheld, hbounded⟩ := pending_exact hcreate hadd
  rw [hpending] at hsmall hheld
  exact ⟨indexer, started, workspace, hcreate, hadd, hpending,
    hsmall.resolve_left (Nat.lt_irrefl 2), portions, hholds, hheld.symm, hbounded⟩

/-- A single document without tokens is pending after its call, although it fills its batch. -/
theorem full_batch_pending :
    ∃ indexer started workspace,
      Yields (create "index" { batchSize := 1 }) {} indexer started ∧
      Yields (addDocument 0 "") { indexer, disk := started } () workspace ∧
      ¬ workspace.indexer.pending < 1 := by
  obtain ⟨indexer, started, workspace, hcreate, hadd, hpending⟩ :=
    @exists_of_run "index" { batchSize := 1 } {} (addDocument 0 "")
      (fun workspace => ¬ workspace.indexer.pending < 1) (by decide +kernel)
  exact ⟨indexer, started, workspace, hcreate, hadd, of_decide_eq_true hpending⟩

end Indexer
end Concordance
