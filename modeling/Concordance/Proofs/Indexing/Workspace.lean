import Concordance.Indexing.Workspace
import Concordance.Proofs.Storage.Disk

/-!
# Workspaces whose files are kept apart

An index uses the names of its files and those of its batch files (`Reserved`). When an index is
created, all of these names are free (`Indexer.of_clearDirectory`), so that each of them is led to a
file of its own from there on, whatever the disk held before.
-/

namespace Concordance

open Attempt

/-! ## Names -/

/-- The names that an index uses. -/
def Reserved (name : String) : Prop :=
  isBatchName name = true ∨ ∃ file : IndexFile, file.name = name

/-- The name of each file of an index is reserved. -/
theorem reserved_name (file : IndexFile) : Reserved file.name :=
  Or.inr ⟨file, rfl⟩

/-- There are no files of an index besides those that are listed. -/
theorem mem_all (file : IndexFile) : file ∈ IndexFile.all := by
  cases file <;> decide

/-- No file of an index is taken for a batch file. -/
theorem isBatchName_name (file : IndexFile) : isBatchName file.name = false := by
  cases file <;> decide

/-- Every batch file is known by its name. -/
theorem isBatchName_batchName (index : Nat) : isBatchName (batchName index) = true := by
  simp only [isBatchName, batchName, String.toList_append, Bool.and_eq_true,
    List.isPrefixOf_iff_prefix, List.isSuffixOf_iff_suffix]
  constructor
  · rw [List.append_assoc]
    exact List.prefix_append _ _
  · exact List.suffix_append _ _

/-- The name of each batch file is reserved. -/
theorem reserved_batchName (index : Nat) : Reserved (batchName index) :=
  Or.inl (isBatchName_batchName index)

/-- No file of an index has the name of a batch file. -/
theorem name_ne_batchName (file : IndexFile) (index : Nat) : file.name ≠ batchName index := by
  intro h
  have hbatch := isBatchName_batchName index
  rw [← h, isBatchName_name] at hbatch
  cases hbatch

/-- Different files of an index have different names. -/
theorem name_inj {first second : IndexFile} (h : first.name = second.name) : first = second := by
  revert h
  cases first <;> cases second <;> decide

/-- Batch files of different numbers have different names. -/
theorem batchName_inj {first second : Nat} (h : batchName first = batchName second) :
    first = second := by
  have hdigits : (toString first).toList = (toString second).toList := by
    unfold batchName at h
    rw [← String.toList_inj, String.toList_append, String.toList_append, String.toList_append,
      String.toList_append] at h
    exact List.append_cancel_left (List.append_cancel_right h)
  rw [Nat.toString_eq_repr, Nat.toString_eq_repr, Nat.toList_repr, Nat.toList_repr] at hdigits
  rw [← @Nat.ofDigitChars_ten_toDigits first, hdigits, Nat.ofDigitChars_ten_toDigits]

/-! ## Steps -/

namespace Indexing

variable {α β : Type} {workspace later : Workspace}

/-- What is done on the disk leaves the indexer as it is. -/
theorem of_onDisk {action : OnDisk α} {result : α}
    (h : Yields (onDisk action) workspace result later) :
    Yields action workspace.disk result later.disk ∧ later.indexer = workspace.indexer := by
  have hrun : onDisk action workspace =
      ((action workspace.disk).1, { workspace with disk := (action workspace.disk).2 }) := rfl
  rw [Yields, hrun] at h
  have hresult := congrArg Prod.fst h
  have hlater := congrArg Prod.snd h
  simp only at hresult hlater
  rw [← hlater]
  exact ⟨Prod.ext hresult rfl, rfl⟩

/-- What is done on the disk can be told apart from the steps that follow it. -/
theorem of_onDisk_bind {action : OnDisk α} {next : α → Indexing β} {result : β}
    (h : Yields (onDisk action >>= next) workspace result later) :
    ∃ value disk, Yields action workspace.disk value disk ∧
      Yields (next value) { workspace with disk } result later := by
  obtain ⟨value, between, haction, hnext⟩ := of_bind h
  obtain ⟨haction, hindexer⟩ := of_onDisk haction
  refine ⟨value, between.disk, haction, ?_⟩
  rw [← hindexer]
  exact hnext

/-- The steps that look at the indexer go on with the one of the workspace. -/
theorem of_indexer_bind {next : Indexer → Indexing β} {result : β}
    (h : Yields (indexer >>= next) workspace result later) :
    Yields (next workspace.indexer) workspace result later :=
  h

/-- A change concerns the indexer only. -/
theorem of_change {f : Indexer → Indexer} {result : Unit}
    (h : Yields (change f) workspace result later) :
    later = { workspace with indexer := f workspace.indexer } := by
  cases h
  rfl

/-- The steps after a change go on with the changed indexer. -/
theorem of_change_bind {f : Indexer → Indexer} {next : Unit → Indexing β} {result : β}
    (h : Yields (change f >>= next) workspace result later) :
    Yields (next ()) { workspace with indexer := f workspace.indexer } result later :=
  h

variable {failure : Failure}

/-- What fails on the disk leaves the indexer as it is. -/
theorem fails_onDisk {action : OnDisk α} (h : Fails (onDisk action) workspace failure later) :
    Fails action workspace.disk failure later.disk ∧ later.indexer = workspace.indexer := by
  have hrun : onDisk action workspace =
      ((action workspace.disk).1, { workspace with disk := (action workspace.disk).2 }) := rfl
  rw [Fails, hrun] at h
  have hresult := congrArg Prod.fst h
  have hlater := congrArg Prod.snd h
  simp only at hresult hlater
  rw [← hlater]
  exact ⟨Prod.ext hresult rfl, rfl⟩

/-- If the disk is used first, either that fails or what follows it. -/
theorem fails_onDisk_bind {action : OnDisk α} {next : α → Indexing β}
    (h : Fails (onDisk action >>= next) workspace failure later) :
    (Fails action workspace.disk failure later.disk ∧ later.indexer = workspace.indexer) ∨
      ∃ value disk, Yields action workspace.disk value disk ∧
        Fails (next value) { workspace with disk } failure later := by
  rcases fails_of_bind h with haction | ⟨value, between, haction, hnext⟩
  · exact Or.inl (fails_onDisk haction)
  · obtain ⟨haction, hindexer⟩ := of_onDisk haction
    refine Or.inr ⟨value, between.disk, haction, ?_⟩
    rw [← hindexer]
    exact hnext

/-- Looking at the indexer does not fail, so what follows it does. -/
theorem fails_indexer_bind {next : Indexer → Indexing β}
    (h : Fails (indexer >>= next) workspace failure later) :
    Fails (next workspace.indexer) workspace failure later :=
  h

/-- A change does not fail, so what follows it does. -/
theorem fails_change_bind {f : Indexer → Indexer} {next : Unit → Indexing β}
    (h : Fails (change f >>= next) workspace failure later) :
    Fails (next ()) { workspace with indexer := f workspace.indexer } failure later :=
  h

/-- A change does not fail. -/
theorem not_fails_change {f : Indexer → Indexer}
    (h : Fails (change f) workspace failure later) : False := by
  cases h

end Indexing

namespace Indexer

/-! ## Creating an index -/

variable {disk later : Disk}

/-- All names of an index are free when the directory has been cleared. -/
theorem of_clearDirectory {result : Unit} (h : Yields clearDirectory disk result later) :
    ∀ name, Reserved name → later.names.find? name = none := by
  unfold clearDirectory at h
  obtain ⟨_, cleared, hfiles, h⟩ := of_bind h
  obtain ⟨names, listed, hlist, h⟩ := of_bind h
  have hwithout := Disk.of_forM_remove (fun hstep => Disk.of_removeIfPresent hstep) hfiles
  obtain ⟨hsame, rfl⟩ := Disk.of_list hlist
  have hwithout' := Disk.of_forM_remove (fun hstep => Disk.of_remove hstep) h
  intro name hreserved
  by_cases hremoved : ∃ other ∈ cleared.fileNames.filter isBatchName, other = name
  · exact (hwithout'.2 name).1 hremoved
  · rw [(hwithout'.2 name).2 hremoved, hsame.names]
    rcases hreserved with hbatch | ⟨file, hfile⟩
    · cases hfound : cleared.names.find? name with
      | none => rfl
      | some file =>
          have hlisted := List.mem_filter.2 ⟨Disk.mem_fileNames hfound, hbatch⟩
          exact absurd ⟨name, hlisted, rfl⟩ hremoved
    · exact (hwithout.2 name).1 ⟨file, mem_all file, hfile⟩

/-- A new index has an empty batch, and its names are kept apart. -/
theorem of_create {path : String} {settings : IndexSettings} {indexer : Indexer}
    (h : Yields (create path settings) disk indexer later) :
    Disk.Separate Reserved later ∧ ∃ documents,
      later.names.find? IndexFile.contents.name = some documents.contents.file ∧
      indexer = { path, settings, common := commonAtFirst settings.common,
                  documents := some documents } := by
  unfold create at h
  obtain ⟨_, present, -, h⟩ := of_bind h
  obtain ⟨_, cleared, hclear, h⟩ := of_bind h
  obtain ⟨documents, opened, hopen, h⟩ := of_bind h
  obtain ⟨rfl, rfl⟩ := of_pure h
  unfold DocumentWriter.create at hopen
  obtain ⟨contents, between, hcontents, hopen⟩ := of_bind hopen
  obtain ⟨rfl, rfl⟩ := of_pure hopen
  unfold Appender.create at hcontents
  obtain ⟨file, created, hfile, hcontents⟩ := of_bind hcontents
  obtain ⟨rfl, rfl⟩ := of_pure hcontents
  have hfree := of_clearDirectory hclear
  have hseparate : Disk.Separate Reserved cleared := by
    refine ⟨fun name file hown hfile => ?_, fun name other file hown _ hfile _ => ?_⟩
    · rw [hfree name hown] at hfile
      cases hfile
    · rw [hfree name hown] at hfile
      cases hfile
  obtain ⟨htouches, -, hname, -⟩ := Disk.of_create hseparate (reserved_name .contents) hfile
  exact ⟨htouches.separate, _, hname, rfl⟩

end Indexer

/-! ## Storing contents -/

/-- An appender that writes to the file of a name, which is kept apart from other names. -/
structure Appender.Writes (appender : Appender) (name : String) (disk : Disk) : Prop where
  separate : Disk.Separate Reserved disk
  name : disk.names.find? name = some appender.file

/-- An appender went on, and nothing changed outside its file. -/
structure Appender.Continues (name : String) (disk : Disk) (appender : Appender) (later : Disk) :
    Prop where
  writes : appender.Writes name later
  touches : Disk.Touches Reserved name disk later

namespace Appender

variable {appender after : Appender} {name : String} {disk later : Disk} {bytes : Bytes}

/-- Without anything written, an appender of the same file goes on on the same disk. -/
theorem Writes.continues (h : appender.Writes name disk) (hfile : after.file = appender.file) :
    after.Continues name disk disk :=
  ⟨⟨h.separate, hfile ▸ h.name⟩, ⟨h.separate, fun _ _ _ => rfl, fun _ _ _ => rfl⟩⟩

/-- Bytes that go straight to the file change no other one. -/
theorem of_writeThrough (hname : Reserved name) (hwrites : appender.Writes name disk)
    (h : Yields (appender.writeThrough bytes) disk after later) :
    after.Continues name disk later := by
  unfold writeThrough at h
  obtain ⟨_, between, hwrite, h⟩ := of_bind h
  obtain ⟨rfl, rfl⟩ := of_pure h
  obtain ⟨htouches, -, hnames, -⟩ :=
    Disk.of_writeAt hwrites.separate hname hwrites.name hwrite
  exact ⟨⟨htouches.separate, hnames ▸ hwrites.name⟩, htouches⟩

/-- What is flushed changes no other file. -/
theorem of_flush (hname : Reserved name) (hwrites : appender.Writes name disk)
    (h : Yields appender.flush disk after later) : after.Continues name disk later := by
  unfold flush at h
  split at h
  · obtain ⟨rfl, rfl⟩ := of_pure h
    exact hwrites.continues rfl
  · obtain ⟨written, between, hwrite, h⟩ := of_bind h
    obtain ⟨rfl, rfl⟩ := of_pure h
    obtain ⟨hwrites', htouches⟩ := of_writeThrough hname hwrites hwrite
    exact ⟨⟨hwrites'.separate, hwrites'.name⟩, htouches⟩

/-- Accepted bytes change no other file, whether they are held back or written. -/
theorem of_accept (hname : Reserved name) (hwrites : appender.Writes name disk)
    (h : Yields (appender.accept bytes) disk after later) : after.Continues name disk later := by
  unfold accept at h
  split at h
  · obtain ⟨rfl, rfl⟩ := of_pure h
    exact hwrites.continues rfl
  · exact of_writeThrough hname hwrites h

/-- Bytes that cannot be written leave the disk as it was. -/
theorem fails_writeThrough {failure : Failure}
    (h : Fails (appender.writeThrough bytes) disk failure later) : Disk.Same disk later := by
  unfold writeThrough at h
  rcases fails_of_bind h with hwrite | ⟨_, between, -, hrest⟩
  · exact Disk.fails_writeAt hwrite
  · exact (not_fails_pure hrest).elim

/-- A flush that fails leaves the disk as it was. -/
theorem fails_flush {failure : Failure} (h : Fails appender.flush disk failure later) :
    Disk.Same disk later := by
  unfold flush at h
  split at h
  · exact (not_fails_pure h).elim
  · rcases fails_of_bind h with hwrite | ⟨_, between, -, hrest⟩
    · exact fails_writeThrough hwrite
    · exact (not_fails_pure hrest).elim

/-- Bytes that are not accepted leave the disk as it was. -/
theorem fails_accept {failure : Failure} (h : Fails (appender.accept bytes) disk failure later) :
    Disk.Same disk later := by
  unfold accept at h
  split at h
  · exact (not_fails_pure h).elim
  · exact fails_writeThrough h

end Appender

namespace DocumentWriter

variable {writer after : DocumentWriter} {name : String} {disk later : Disk} {bytes : Bytes}

/-- Making room for a document changes no file but that of the contents. -/
theorem of_makeRoom (hname : Reserved name) (hwrites : writer.contents.Writes name disk)
    (h : Yields (writer.makeRoom bytes) disk after later) :
    after.contents.Continues name disk later := by
  unfold makeRoom at h
  split at h
  · obtain ⟨rfl, rfl⟩ := of_pure h
    exact hwrites.continues rfl
  · obtain ⟨contents, between, hflush, h⟩ := of_bind h
    obtain ⟨rfl, rfl⟩ := of_pure h
    exact Appender.of_flush hname hwrites hflush

/-- Appending a document changes no file but that of the contents. -/
theorem of_append {document : DocumentId} (hname : Reserved name)
    (hwrites : writer.contents.Writes name disk)
    (h : Yields (writer.append document bytes) disk after later) :
    after.contents.Continues name disk later := by
  unfold append at h
  obtain ⟨contents, between, haccept, h⟩ := of_bind h
  obtain ⟨rfl, rfl⟩ := of_pure h
  exact Appender.of_accept hname hwrites haccept

/-- If there is no room for a document, the disk is as it was. -/
theorem fails_makeRoom {failure : Failure} (h : Fails (writer.makeRoom bytes) disk failure later) :
    Disk.Same disk later := by
  unfold makeRoom at h
  split at h
  · exact (not_fails_pure h).elim
  · rcases fails_of_bind h with hflush | ⟨_, between, -, hrest⟩
    · exact Appender.fails_flush hflush
    · exact (not_fails_pure hrest).elim

/-- A document that cannot be appended leaves the disk as it was. -/
theorem fails_append {document : DocumentId} {failure : Failure}
    (h : Fails (writer.append document bytes) disk failure later) : Disk.Same disk later := by
  unfold append at h
  rcases fails_of_bind h with haccept | ⟨_, between, -, hrest⟩
  · exact Appender.fails_accept haccept
  · exact (not_fails_pure hrest).elim

end DocumentWriter

/-- The names of an index are kept apart, and its document store writes to the file of its name. -/
structure Workspace.Tidy (workspace : Workspace) : Prop where
  separate : Disk.Separate Reserved workspace.disk
  contents : ∀ documents, workspace.indexer.documents = some documents →
    workspace.disk.names.find? IndexFile.contents.name = some documents.contents.file

/-- A use of another name leaves a workspace tidy. -/
theorem Workspace.Tidy.touches {workspace later : Workspace} (h : workspace.Tidy) {name : String}
    (htouches : Disk.Touches Reserved name workspace.disk later.disk)
    (hne : name ≠ IndexFile.contents.name)
    (hdocuments : later.indexer.documents = workspace.indexer.documents) : later.Tidy := by
  refine ⟨htouches.separate, fun documents hsome => ?_⟩
  rw [htouches.names _ (reserved_name _) hne.symm]
  exact h.contents documents (hdocuments ▸ hsome)

namespace Indexer

/-- Storing a content changes the document store and its file only. -/
theorem of_storeContent {document : DocumentId} {content : String} {workspace later : Workspace}
    {result : Unit} (htidy : workspace.Tidy)
    (h : Yields (storeContent document content) workspace result later) :
    later.Tidy ∧ Disk.Touches Reserved IndexFile.contents.name workspace.disk later.disk ∧
      ∃ documents, later.indexer = { workspace.indexer with documents } := by
  unfold storeContent at h
  replace h := Indexing.of_indexer_bind h
  split at h
  · obtain ⟨-, rfl⟩ := of_pure h
    exact ⟨htidy, ⟨htidy.separate, fun _ _ _ => rfl, fun _ _ _ => rfl⟩, _, rfl⟩
  · rename_i writer hwriter
    obtain ⟨roomy, afterRoom, hroom, hrest⟩ := Indexing.of_onDisk_bind h
    replace hrest := Indexing.of_change_bind hrest
    obtain ⟨appended, afterAppend, happend, hrest'⟩ := Indexing.of_onDisk_bind hrest
    obtain rfl := Indexing.of_change hrest'
    have hname := reserved_name .contents
    obtain ⟨hwrites, htouches⟩ := DocumentWriter.of_makeRoom hname
      ⟨htidy.separate, htidy.contents writer hwriter⟩ hroom
    obtain ⟨hwrites', htouches'⟩ := DocumentWriter.of_append hname hwrites happend
    refine ⟨⟨hwrites'.separate, fun documents hsome => ?_⟩, htouches.trans htouches',
      some appended, rfl⟩
    cases hsome
    exact hwrites'.name

/-- A content that could not be stored changed no more than that: at most, room was made for it. -/
theorem fails_storeContent {document : DocumentId} {content : String} {workspace later : Workspace}
    {failure : Failure} (htidy : workspace.Tidy)
    (h : Fails (storeContent document content) workspace failure later) :
    later.Tidy ∧ Disk.Touches Reserved IndexFile.contents.name workspace.disk later.disk ∧
      ∃ documents, later.indexer = { workspace.indexer with documents } := by
  unfold storeContent at h
  replace h := Indexing.fails_indexer_bind h
  split at h
  · exact (not_fails_pure h).elim
  · rename_i writer hwriter
    have hname := reserved_name .contents
    have hwrites : writer.contents.Writes IndexFile.contents.name workspace.disk :=
      ⟨htidy.separate, htidy.contents writer hwriter⟩
    rcases Indexing.fails_onDisk_bind h with ⟨hroom, hindexer⟩ | ⟨roomy, between, hroom, hrest⟩
    · have hsame := DocumentWriter.fails_makeRoom hroom
      have htouches := hsame.touches htidy.separate IndexFile.contents.name
      refine ⟨⟨htouches.separate, fun documents hsome => ?_⟩, htouches, _, hindexer⟩
      rw [hsame.names]
      exact htidy.contents documents (hindexer ▸ hsome)
    · obtain ⟨hwrites', htouches⟩ := DocumentWriter.of_makeRoom hname hwrites hroom
      replace hrest := Indexing.fails_change_bind hrest
      rcases Indexing.fails_onDisk_bind hrest with ⟨happend, hindexer⟩ | ⟨_, _, -, hlast⟩
      · have hsame := DocumentWriter.fails_append happend
        have htouches' := hsame.touches hwrites'.separate IndexFile.contents.name
        refine ⟨⟨htouches'.separate, fun documents hsome => ?_⟩, htouches.trans htouches', _,
          hindexer⟩
        rw [hindexer] at hsome
        cases hsome
        rw [hsame.names]
        exact hwrites'.name
      · exact (Indexing.not_fails_change hlast).elim

end Indexer
end Concordance
