import Concordance.Proofs.Indexing.Accounts
import Concordance.Proofs.Searching.Losses
import Concordance.Proofs.Storage.DocumentLengths
import Mathlib.Algebra.BigOperators.Group.Finset.Piecewise
import Mathlib.Algebra.Order.BigOperators.Group.Finset

/-!
# Totals

Whatever becomes of the documents that are added, the statistics of an indexer are the totals of its
table of lengths over the documents that were taken in, each of which has the length it was last
taken in with (`Indexer.totals_exact`). After a commit that succeeds, a searcher has the same
statistics and the same table.
-/

namespace Concordance

open Attempt

/-! ## Documents that were taken in -/

/-- Whether the document was taken in. -/
def Call.taken : Call → Bool
  | refused _ => false
  | held => true
  | written => true
  | lost _ => true

namespace Indexer

/-- The documents of a run that were taken in. -/
def takenOf (documents : List (DocumentId × String)) (outcomes : List Call) :
    List (DocumentId × String) :=
  ((documents.zip outcomes).filter fun entry => entry.2.taken).map Prod.fst

/-- The different documents that were taken in. -/
def distinct (taken : List (DocumentId × String)) : Finset DocumentId :=
  (taken.map Prod.fst).toFinset

/-- The number of indexed tokens of the content with which a document was last taken in, zero if it
was not taken in. -/
def lastLength (tokenizer : Tokenizer) (taken : List (DocumentId × String))
    (document : DocumentId) : Nat :=
  match taken.reverse.lookup document with
  | some content => (indexedTokens tokenizer content).length
  | none => 0

variable {tokenizer : Tokenizer} {taken : List (DocumentId × String)}

/-- A document that is taken in joins the others, unless it is one of them. -/
theorem distinct_append (taken : List (DocumentId × String)) (document : DocumentId × String) :
    distinct (taken ++ [document]) = insert document.1 (distinct taken) := by
  ext other
  simp [distinct]

/-- The length of a document that is taken in replaces an earlier one. -/
theorem lastLength_append (tokenizer : Tokenizer) (taken : List (DocumentId × String))
    (document : DocumentId × String) :
    lastLength tokenizer (taken ++ [document]) = Function.update (lastLength tokenizer taken)
      document.1 (indexedTokens tokenizer document.2).length := by
  funext other
  rw [lastLength, List.reverse_append, List.reverse_singleton, List.singleton_append,
    List.lookup_cons]
  by_cases h : other = document.1
  · rw [h, Function.update_self, beq_self_eq_true]
  · rw [Function.update_of_ne h, beq_eq_false_iff_ne.2 h, lastLength]

/-- Documents that were not taken in have no length. -/
theorem lastLength_eq_zero {document : DocumentId} (h : document ∉ distinct taken) :
    lastLength tokenizer taken document = 0 := by
  have hnone : taken.reverse.lookup document = none := by
    refine List.lookup_eq_none_iff.2 fun entry hentry => bne_iff_ne.2 fun heq => h ?_
    exact List.mem_toFinset.2 (List.mem_map.2 ⟨entry, List.mem_reverse.1 hentry, heq.symm⟩)
  rw [lastLength, hnone]

/-- No document is longer than there are positions. -/
theorem lastLength_le (document : DocumentId) :
    lastLength tokenizer taken document ≤ Position.limit.toNat := by
  unfold lastLength
  split
  · exact List.length_take_le _ _
  · exact Nat.zero_le _

/-! ## Sums of lengths -/

/-- The sum of the last lengths of the documents that were taken in. -/
def total (tokenizer : Tokenizer) (taken : List (DocumentId × String)) : Nat :=
  ∑ document ∈ distinct taken, lastLength tokenizer taken document

/-- The last length of a document is part of the sum, if it is not zero. -/
theorem lastLength_le_total (document : DocumentId) :
    lastLength tokenizer taken document ≤ total tokenizer taken := by
  by_cases h : document ∈ distinct taken
  · exact Finset.single_le_sum (fun _ _ => Nat.zero_le _) h
  · rw [lastLength_eq_zero h]
    exact Nat.zero_le _

/-- A document that is taken in brings its new length in place of the old one. -/
theorem total_append (document : DocumentId × String) :
    total tokenizer (taken ++ [document]) + lastLength tokenizer taken document.1 =
      total tokenizer taken + (indexedTokens tokenizer document.2).length := by
  have hold := Finset.sum_insert_of_eq_zero_if_notMem
    (@lastLength_eq_zero tokenizer taken document.1)
  have hrest := Finset.add_sum_erase _ (lastLength tokenizer taken)
    (Finset.mem_insert_self document.1 (distinct taken))
  rw [total, distinct_append, lastLength_append,
    Finset.sum_update_of_mem (Finset.mem_insert_self _ _), Finset.sdiff_singleton_eq_erase, total]
  omega

/-- There are not so many documents that the sum of their lengths would not fit into 64 bits. -/
theorem total_lt : total tokenizer taken < 2 ^ 64 := by
  have hcard : (distinct taken).card ≤ 2 ^ 32 := by
    have hle := Finset.card_le_card_of_injOn UInt32.toNat
      (fun document (_ : document ∈ distinct taken) => Finset.mem_coe.2
        (Finset.mem_range.2 document.toNat_lt)) fun _ _ _ _ h => UInt32.toNat_inj.1 h
    rwa [Finset.card_range] at hle
  have hsum := Finset.sum_le_card_nsmul (distinct taken) (lastLength tokenizer taken)
    Position.limit.toNat fun document _ => lastLength_le document
  have hlimit : Position.limit.toNat = 1048560 := by decide
  rw [Nat.nsmul_eq_mul, hlimit] at hsum
  show (distinct taken).sum (lastLength tokenizer taken) < 2 ^ 64
  omega

/-! ## Keeping account -/

/-- An indexer has counted these documents, in this order. -/
structure Balanced (tokenizer : Tokenizer) (taken : List (DocumentId × String))
    (indexer : Indexer) : Prop where
  counts : Counts (taken.map Prod.fst) indexer
  lengths : ∀ document,
    (indexer.lengths.get document).toNat = lastLength tokenizer taken document
  tokens : indexer.statistics.tokens.toNat = total tokenizer taken

variable {indexer other : Indexer}

/-- The balance of an indexer is told by its accounts. -/
theorem Balanced.congr (h : Balanced tokenizer taken indexer)
    (haccounts : other.accounts = indexer.accounts) : Balanced tokenizer taken other := by
  obtain ⟨-, hrest⟩ := Prod.mk.inj haccounts
  obtain ⟨hlengths, hstatistics⟩ := Prod.mk.inj hrest
  refine ⟨h.counts.congr haccounts, fun document => ?_, ?_⟩
  · rw [hlengths]
    exact h.lengths document
  · rw [hstatistics]
    exact h.tokens

/-- The length of a document is part of the number of all tokens, so it can be taken off. -/
theorem Balanced.length_le (h : Balanced tokenizer taken indexer) (document : DocumentId) :
    (indexer.lengths.get document).toUInt64 ≤ indexer.statistics.tokens := by
  rw [UInt64.le_iff_toNat_le, UInt32.toNat_toUInt64, h.lengths, h.tokens]
  exact lastLength_le_total document

/-- A document that is not known has no length. -/
theorem Balanced.length_eq_zero (h : Balanced tokenizer taken indexer) {document : DocumentId}
    (hdocument : document ∉ distinct taken) : indexer.lengths.get document = 0 := by
  rw [← UInt32.toNat_inj, h.lengths, lastLength_eq_zero hdocument]
  rfl

/-- The old length of a document is taken off the tokens, which is zero if it was not known, and the
new one is added. -/
theorem Balanced.tokens_account (h : Balanced tokenizer taken indexer) (document : DocumentId)
    (length : UInt32) : (account document length indexer).statistics.tokens =
      indexer.statistics.tokens - (indexer.lengths.get document).toUInt64 + length.toUInt64 := by
  cases hknown : indexer.known.contains document with
  | true => simp only [account, hknown, if_true]
  | false =>
      have hnew : document ∉ distinct taken := fun hmem => by
        have hmem' := (h.counts.mem_iff document).2 (List.mem_toFinset.1 hmem)
        rw [List.contains_iff_mem.2 hmem'] at hknown
        cases hknown
      simp only [account, hknown, Bool.false_eq_true, if_false]
      rw [h.length_eq_zero hnew]
      simp

/-- Taking account of a document keeps the balance. -/
theorem Balanced.account (h : Balanced tokenizer taken indexer)
    (document : DocumentId × String) :
    Balanced tokenizer (taken ++ [document])
      (account document.1 (indexedTokens tokenizer document.2).length.toUInt32 indexer) := by
  have hlength : (indexedTokens tokenizer document.2).length.toUInt32.toNat =
      (indexedTokens tokenizer document.2).length := by
    have hle : (indexedTokens tokenizer document.2).length ≤ Position.limit.toNat :=
      List.length_take_le _ _
    have hlimit : Position.limit.toNat < 2 ^ 32 := by decide
    exact Nat.mod_eq_of_lt (Nat.lt_of_le_of_lt hle hlimit)
  refine ⟨?_, fun other => ?_, ?_⟩
  · rw [List.map_append]
    exact h.counts.account document.1 _
  · show ((indexer.lengths.set document.1 _).get other).toNat = _
    rw [DocumentLengths.get_set, lastLength_append, Function.update_apply]
    split
    · exact hlength
    · exact h.lengths other
  · have hsum := @total_append tokenizer taken document
    have hlt := @total_lt tokenizer (taken ++ [document])
    have hle := @lastLength_le_total tokenizer taken document.1
    rw [h.tokens_account, UInt64.toNat_add, UInt64.toNat_sub_of_le _ _ (h.length_le document.1),
      UInt32.toNat_toUInt64, UInt32.toNat_toUInt64, hlength, h.lengths, h.tokens]
    omega

/-! ## Runs -/

variable {path : String} {settings : IndexSettings} {disk started : Disk}
  {documents : List (DocumentId × String)} {workspace : Workspace} {outcomes : List Call}

/-- A call counts its document if it took it in. -/
theorem takenOf_cons (document : DocumentId × String) (documents : List (DocumentId × String))
    (call : Call) (outcomes : List Call) : takenOf (document :: documents) (call :: outcomes) =
      if call.taken then document :: takenOf documents outcomes
      else takenOf documents outcomes := by
  unfold takenOf
  rw [List.zip_cons_cons, List.filter_cons]
  split
  · rfl
  · rfl

/-- Whatever becomes of a document, the accounts are right again after the call. -/
theorem balanced_call (hsettings : workspace.indexer.settings = settings)
    (h : Balanced settings.tokenizer taken workspace.indexer) (document : DocumentId × String) :
    Balanced settings.tokenizer
      (if (call document workspace).1.taken then taken ++ [document] else taken)
      (call document workspace).2.indexer := by
  rcases call_cases document workspace with ⟨failure, later, htake, hcall⟩ | ⟨added, htake, hcall⟩
  · rw [hcall]
    exact h.congr (accounts_of_fails_takeIn htake)
  · have hadded : Balanced settings.tokenizer (taken ++ [document]) added.indexer := by
      have haccounts := accounts_of_takeIn htake
      rw [hsettings] at haccounts
      exact (h.account document).congr haccounts
    rcases hcall with ⟨failure, later, hwrite, hcall⟩ | ⟨later, hwrite, hcall⟩
    · rw [hcall]
      exact hadded.congr (keeps_writeIfFull.of_fails hwrite)
    · have hlater := hadded.congr (keeps_writeIfFull.of_yields hwrite)
      rw [hcall]
      split
      · exact hlater
      · exact hlater

/-- The accounts are right after any run of calls. -/
theorem balanced_calls {ledger : Ledger}
    (hholds : Holds path settings (ledger.portions settings.tokenizer) workspace)
    (h : Balanced settings.tokenizer taken workspace.indexer)
    (documents : List (DocumentId × String)) :
    Balanced settings.tokenizer (taken ++ takenOf documents (calls documents workspace).1)
      (calls documents workspace).2.indexer := by
  induction documents generalizing taken ledger workspace with
  | nil => exact (List.append_nil taken).symm ▸ h
  | cons document documents ih =>
      have hcall := balanced_call hholds.sameSettings h document
      have hrest := ih (holds_call hholds document) hcall
      rw [calls_cons, takenOf_cons]
      split
      · rename_i htaken
        rw [if_pos htaken, List.append_assoc] at hrest
        exact hrest
      · rename_i htaken
        rw [if_neg htaken] at hrest
        exact hrest

/-- An indexer that was just created has counted nothing. -/
theorem balanced_create (h : Yields (create path settings) disk indexer started) :
    Balanced tokenizer [] indexer := by
  obtain ⟨-, contents, -, rfl⟩ := of_create h
  exact ⟨counts_nil rfl rfl, fun _ => rfl, rfl⟩

/-! ## Reading the totals back -/

/-- An index whose files are legible is opened, with what they tell of the documents. -/
theorem exists_searcher_of_recorded (hrecorded : Recorded indexer disk) (hlegible : Legible disk)
    (searchPath : String) (searchSettings : SearchSettings) :
    ∃ searcher, Searcher.ofDisk disk searchPath searchSettings = .ok searcher ∧
      searcher.statistics = indexer.statistics ∧ searcher.lengths = indexer.lengths := by
  obtain ⟨hpresent, ⟨directory, bytes, hdirectory, hdirectoryFile⟩, common, commonBytes, hcommon,
    hcommonFile⟩ := hlegible
  obtain ⟨foundDirectory, hreadDirectory, -⟩ := TokenDirectory.ofFile_toBytes hdirectory
  obtain ⟨foundCommon, hreadCommon⟩ := CommonTokens.exists_ofFile hcommon
  unfold Searcher.ofDisk
  rw [if_pos hpresent]
  simp only [hdirectoryFile, hreadDirectory, hcommonFile, hreadCommon, hrecorded.statistics,
    hrecorded.lengths, bind, Except.bind, pure, Except.pure]
  exact ⟨_, rfl, IndexStatistics.ofFile_text _, DocumentLengths.ofFile_toBytes _⟩

/-- What an indexer tells of documents that were taken in one after another: the number of different
documents, the sum of their lengths, and for each document the length with which it was last taken
in. No length is greater than the sum, from which it is taken off when the document comes again. -/
structure Totals (tokenizer : Tokenizer) (taken : List (DocumentId × String)) (indexer : Indexer) :
    Prop where
  documents : indexer.statistics.documents.toNat = (distinct taken).card
  tokens : indexer.statistics.tokens.toNat =
    ∑ document ∈ distinct taken, (indexer.lengths.get document).toNat
  lengths : ∀ document,
    (indexer.lengths.get document).toNat = lastLength tokenizer taken document
  elsewhere : ∀ document ∉ distinct taken, indexer.lengths.get document = 0
  within : ∀ document,
    (indexer.lengths.get document).toUInt64 ≤ indexer.statistics.tokens

/-- Accounts that are right tell the totals if 32 bits are enough for the number of documents. -/
theorem Balanced.totals (h : Balanced tokenizer taken indexer)
    (hdistinct : (distinct taken).card < 2 ^ 32) : Totals tokenizer taken indexer := by
  refine ⟨?_, ?_, h.lengths, fun _ => h.length_eq_zero, h.length_le⟩
  · have hknown : indexer.known.toFinset = distinct taken := by
      ext document
      rw [List.mem_toFinset, h.counts.mem_iff, distinct, List.mem_toFinset]
    have hlength : indexer.known.length = (distinct taken).card := by
      rw [← hknown, List.toFinset_card_of_nodup h.counts.nodup]
    rw [h.counts.documents, hlength]
    exact Nat.mod_eq_of_lt hdistinct
  · simp only [h.tokens, h.lengths, total]

/-- **The statistics are the totals of the table of lengths.** After any number of calls, whichever
of them fail and wherever they do, an indexer tells the totals of the documents that were taken in,
if there are less than `2 ^ 32` different ones. If it is committed then, a searcher reads the same
statistics and the same table of lengths. -/
theorem totals_exact (hcreate : Yields (create path settings) disk indexer started)
    (hrun : calls documents { indexer, disk := started } = (outcomes, workspace))
    (hdistinct : (distinct (takenOf documents outcomes)).card < 2 ^ 32) :
    Totals settings.tokenizer (takenOf documents outcomes) workspace.indexer ∧
      ∀ committed, Yields commit workspace () committed →
        ∀ searchPath searchSettings, ∃ searcher,
          Searcher.ofDisk committed.disk searchPath searchSettings = .ok searcher ∧
            searcher.statistics = workspace.indexer.statistics ∧
            searcher.lengths = workspace.indexer.lengths := by
  have hstarted : Holds path settings (Ledger.portions {} settings.tokenizer)
      { indexer, disk := started } := (holds_create hcreate).toHolds
  have hbalanced := balanced_calls hstarted (balanced_create hcreate) documents
  have hholds := holds_calls hstarted documents
  rw [hrun] at hbalanced hholds
  refine ⟨hbalanced.totals hdistinct, fun committed hcommit searchPath searchSettings => ?_⟩
  obtain ⟨common, -, -, hrecorded, hlegible, -⟩ := of_commit hholds hcommit
  obtain ⟨-, hrest⟩ := Prod.mk.inj (keeps_commit.of_yields hcommit)
  obtain ⟨hlengths, hstatistics⟩ := Prod.mk.inj hrest
  obtain ⟨searcher, hopen, hsearcher⟩ :=
    exists_searcher_of_recorded hrecorded hlegible searchPath searchSettings
  rw [hlengths, hstatistics] at hsearcher
  exact ⟨searcher, hopen, hsearcher⟩

/-- A disk that refuses one attempt, which is that of creating the second batch file. -/
def secondRefusingDisk : Disk :=
  { (default : Disk) with refuses := fun attempt => attempt == 5 }

/-- A document is taken in twice and counts once, with its second length. The last call fails when
its document has been counted, as the second batch cannot be written. -/
theorem totals_exact_repeated :
    ∃ indexer started workspace committed searcher,
      Yields (create "index" (letterSettings 2)) secondRefusingDisk indexer started ∧
      calls [(0, "ab"), (1, "c"), (0, "d"), (2, "e")] { indexer, disk := started } =
        ([.held, .written, .held, .lost .diskFault], workspace) ∧
      Yields commit workspace () committed ∧
      Searcher.ofDisk committed.disk "index" {} = .ok searcher ∧
      searcher.statistics.documents.toNat = 3 ∧ searcher.statistics.tokens.toNat = 3 ∧
      (searcher.lengths.get 0).toNat = 1 := by
  have hrun : (buildAnyway "index" (letterSettings 2) [(0, "ab"), (1, "c"), (0, "d"), (2, "e")]
      secondRefusingDisk).toOption.any (fun result =>
        decide (result.1 = [.held, .written, .held, .lost .diskFault])) = true := by
    decide +kernel
  obtain ⟨⟨outcomes, committed⟩, hbuild, houtcomes⟩ := Success.exists_of_any hrun
  obtain rfl := of_decide_eq_true houtcomes
  obtain ⟨indexer, started, workspace, hcreate, hcalls, hcommit⟩ := steps_of_buildAnyway hbuild
  obtain ⟨htotals, hread⟩ := totals_exact hcreate hcalls (by decide +kernel)
  obtain ⟨searcher, hopen, hstatistics, hlengths⟩ := hread committed hcommit "index" {}
  refine ⟨indexer, started, workspace, committed, searcher, hcreate, hcalls, hcommit, hopen, ?_⟩
  rw [hstatistics, hlengths, htotals.documents, htotals.tokens, htotals.lengths]
  simp only [htotals.lengths]
  exact ⟨by decide +kernel, by decide +kernel, by decide +kernel⟩

end Indexer
end Concordance
