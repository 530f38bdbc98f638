import Concordance.Proofs.Record.Reading
import Concordance.Proofs.Storage.Appender
import Concordance.Proofs.Storage.DocumentLengths
import Concordance.Storage.DocumentWriter

/-!
# Reading back documents

A writer of a document store keeps the contents one after another, in the order in which they were
added, and for each document the place of the last one (`DocumentWriter.Stores`). Contents that were
added before stay in the file, but no record leads to them any more. A store of the two files has
the last content of each document (`DocumentWriter.last_read_back`).
-/

namespace Concordance

open Attempt

/-! ## Extents -/

namespace Extent

/-- This content stands among some bytes where an extent says. -/
structure Holds (extent : Extent) (bytes content : Bytes) : Prop where
  within : extent.start + extent.length ≤ bytes.length
  length : extent.length = content.length
  slice : bytes.slice extent.start extent.length = content

variable {extent : Extent} {bytes content : Bytes}

/-- The extent of a document without a record holds nothing. -/
theorem holds_default (bytes : Bytes) : Holds {} bytes [] :=
  ⟨Nat.zero_le _, rfl, rfl⟩

/-- A content is still there when more bytes follow. -/
theorem Holds.append (h : Holds extent bytes content) (after : Bytes) :
    Holds extent (bytes ++ after) content := by
  refine ⟨?_, h.length, (Bytes.slice_append_of_le h.within after).trans h.slice⟩
  rw [List.length_append]
  exact Nat.le_add_right_of_le h.within

/-- The extent of a content at the end. -/
theorem holds_last (bytes content : Bytes) :
    Holds ⟨bytes.length, content.length⟩ (bytes ++ content) content := by
  refine ⟨Nat.le_of_eq List.length_append.symm, rfl, ?_⟩
  have hslice := Bytes.slice_append bytes content []
  rwa [List.append_nil] at hslice

/-- The record of an extent. -/
def toBytes (extent : Extent) : Bytes :=
  Bytes.ofUInt64 extent.start.toUInt64 ++ Bytes.ofUInt64 extent.length.toUInt64

/-- Every extent takes sixteen bytes. -/
@[simp] theorem length_toBytes (extent : Extent) : extent.toBytes.length = 16 := by
  rw [toBytes, List.length_append, Bytes.length_ofUInt64, Bytes.length_ofUInt64]

end Extent

namespace DocumentExtents

/-- The extent of a document, which is empty if there is no record. -/
def get (table : DocumentExtents) (document : DocumentId) : Extent :=
  table.extents.getD document.toNat {}

/-- Setting the extent of a document changes no other one. -/
theorem get_set (table : DocumentExtents) (document other : DocumentId) (extent : Extent) :
    (table.set document extent).get other =
      if other = document then extent else table.get other := by
  rw [get, set, DocumentLengths.getD_set_extend]
  exact if_congr UInt32.toNat_inj rfl rfl

/-- The file has no record for a document with an empty extent, or the one of its extent. -/
theorem record_cases (table : DocumentExtents) (document : DocumentId) :
    (table.toBytes.slice (16 * document.toNat) 16 = [] ∧ table.get document = {}) ∨
      table.toBytes.slice (16 * document.toNat) 16 = (table.get document).toBytes := by
  have hslice := Bytes.slice_flatMap Extent.length_toBytes table.extents.toList document.toNat
  rw [Array.getElem?_toList] at hslice
  rw [get, Array.getD_eq_getD_getElem?]
  cases hrecord : table.extents[document.toNat]? with
  | none =>
      rw [hrecord] at hslice
      exact Or.inl ⟨hslice, rfl⟩
  | some extent =>
      rw [hrecord] at hslice
      exact Or.inr hslice

end DocumentExtents

/-! ## Stores -/

namespace DocumentStore

/-- A number that is not too large is read back from its bytes. -/
theorem signed_ofUInt64 {value : Nat} (h : value < 2 ^ 63) :
    signed (Bytes.ofUInt64 value.toUInt64) = value := by
  rw [signed, Bytes.toUInt64_ofUInt64]
  exact Int64.toInt_ofNat_of_lt h

/-- The first half of the record of an extent is its start. -/
theorem signed_take {extent : Extent} (h : extent.start < 2 ^ 63) :
    signed (extent.toBytes.take 8) = extent.start := by
  rw [Extent.toBytes, List.take_left' (Bytes.length_ofUInt64 _), signed_ofUInt64 h]

/-- The second half of the record of an extent is its length. -/
theorem signed_drop {extent : Extent} (h : extent.length < 2 ^ 63) :
    signed (extent.toBytes.drop 8) = extent.length := by
  rw [Extent.toBytes, List.drop_left' (Bytes.length_ofUInt64 _), signed_ofUInt64 h]

/-- A file that is not empty is read. -/
theorem nonempty_of_ne_nil {bytes : Bytes} (h : bytes ≠ []) :
    nonempty (some bytes) = some bytes := by
  rw [nonempty, Option.filter_some, if_pos (by simp [h])]

/-- A file that is read without being empty is read as it is. -/
theorem eq_of_nonempty {bytes other : Bytes} (h : nonempty (some bytes) = some other) :
    other = bytes := by
  obtain ⟨hsome, -⟩ := Option.filter_eq_some_iff.1 h
  exact (Option.some.inj hsome).symm

variable {contents : Bytes} {table : DocumentExtents} {document : DocumentId} {content : String}

/-- A store has nothing under an empty extent, with or without a record. -/
theorem get_of_empty {file : Option Bytes} (h : (table.get document).length = 0) :
    (ofFiles file (some table.toBytes)).get document = .ok none := by
  unfold get
  split
  · rename_i contents places _ hplaces
    rw [eq_of_nonempty hplaces]
    rcases table.record_cases document with ⟨hrecord, -⟩ | hrecord
    · rw [hrecord]
      rfl
    · simp only [hrecord, Extent.length_toBytes]
      rw [if_neg (Nat.lt_irrefl 16), signed_drop (by omega), h]
      rfl
  · rfl

/-- A store has the content under an extent that is not empty and not too large for a record. -/
theorem get_of_content (hholds : (table.get document).Holds contents (Bytes.ofText content))
    (hsize : contents.length < 2 ^ 63) (hcontent : (table.get document).length ≠ 0) :
    (ofFiles (some contents) (some table.toBytes)).get document = .ok (some content) := by
  have hwithin := hholds.within
  have hcontents : contents ≠ [] := by
    intro hnil
    rw [hnil, List.length_nil] at hwithin
    omega
  have hrecord : table.toBytes.slice (16 * document.toNat) 16 = (table.get document).toBytes := by
    rcases table.record_cases document with ⟨-, hnone⟩ | hrecord
    · rw [hnone] at hcontent
      exact absurd rfl hcontent
    · exact hrecord
  have hplaces : table.toBytes ≠ [] := by
    intro hnil
    have hlength := Extent.length_toBytes (table.get document)
    rw [← hrecord, hnil, Bytes.slice, List.drop_nil, List.take_nil] at hlength
    cases hlength
  rw [get, ofFiles, nonempty_of_ne_nil hcontents, nonempty_of_ne_nil hplaces]
  simp only [hrecord, Extent.length_toBytes]
  rw [signed_take (by omega), signed_drop (by omega), if_neg (Nat.lt_irrefl 16),
    if_neg (by omega), Int.toNat_natCast, Int.toNat_natCast, if_neg (by omega), hholds.slice,
    Bytes.toText?_ofText]

/-- What a store of two files has under an extent. -/
theorem get_ofFiles (hholds : (table.get document).Holds contents (Bytes.ofText content))
    (hsize : contents.length < 2 ^ 63) :
    (ofFiles (some contents) (some table.toBytes)).get document =
      .ok (if content = "" then none else some content) := by
  split
  · rename_i hempty
    refine get_of_empty ?_
    rw [hholds.length, hempty]
    rfl
  · rename_i hcontent
    refine get_of_content hholds hsize fun hzero => hcontent ?_
    -- a text without bytes is empty
    rw [hholds.length, List.length_eq_zero_iff] at hzero
    have htext := Bytes.toText?_ofText content
    rw [hzero] at htext
    exact (Option.some.inj htext).symm

end DocumentStore

/-! ## Writers -/

namespace DocumentWriter

/-- Add the contents of documents one after another. -/
def addAll (writer : DocumentWriter) : List (DocumentId × String) → OnDisk DocumentWriter
  | [] => pure writer
  | (document, content) :: added => do
      let writer ← writer.add document content
      writer.addAll added

/-- Write a store with the contents of documents. -/
def writeAll (contentsName placesName : String) (added : List (DocumentId × String)) :
    OnDisk Unit := do
  let writer ← create contentsName
  let writer ← writer.addAll added
  writer.finish placesName

/-- All contents, one after another. -/
def contentsOf (added : List (DocumentId × String)) : Bytes :=
  added.flatMap fun (_, content) => Bytes.ofText content

/-- The content with which a document was last added. A document that was not added has none. -/
def lastContent (added : List (DocumentId × String)) (document : DocumentId) : String :=
  (added.reverse.lookup document).getD ""

variable {own : String → Prop} {name placesName : String} {added done : List (DocumentId × String)}
  {writer after : DocumentWriter} {disk later : Disk} {document : DocumentId} {content : String}
  {bytes : Bytes} {result : Unit}

/-- The contents of one more document stand behind those of the others. -/
theorem contentsOf_concat (added : List (DocumentId × String)) (document : DocumentId)
    (content : String) :
    contentsOf (added ++ [(document, content)]) = contentsOf added ++ Bytes.ofText content := by
  rw [contentsOf, List.flatMap_append, List.flatMap_singleton]
  rfl

/-- A content that is added last is the last one of its document. -/
theorem lastContent_concat (added : List (DocumentId × String)) (document other : DocumentId)
    (content : String) :
    lastContent (added ++ [(document, content)]) other =
      if other = document then content else lastContent added other := by
  rw [lastContent, List.reverse_append, List.reverse_singleton, List.singleton_append,
    List.lookup_cons]
  by_cases h : other = document
  · rw [h, beq_self_eq_true, if_pos rfl]
    rfl
  · rw [beq_eq_false_iff_ne.2 h, if_neg h]
    rfl

/-- A writer has taken in the contents of documents and knows where the last one of each stands. -/
structure Stores (own : String → Prop) (name : String) (added : List (DocumentId × String))
    (writer : DocumentWriter) (disk : Disk) : Prop where
  contents : writer.contents.Carries own name (contentsOf added) disk
  extents : ∀ document, (writer.extents.get document).Holds (contentsOf added)
    (Bytes.ofText (lastContent added document))

/-- A new writer has taken in nothing. -/
theorem of_create (hseparate : Disk.Separate own disk) (hown : own name)
    (h : Yields (create name) disk writer later) : Stores own name [] writer later := by
  unfold create at h
  obtain ⟨contents, created, hcreate, h⟩ := of_bind h
  obtain ⟨rfl, rfl⟩ := of_pure h
  exact ⟨Appender.of_create hseparate hown hcreate, fun document => Extent.holds_default _⟩

/-- After room was made, nothing is held back before a content that passes by. -/
theorem Stores.makeRoom (h : Stores own name added writer disk) (hown : own name)
    (hroom : Yields (writer.makeRoom bytes) disk after later) :
    Stores own name added after later ∧
      (bytes.length < Appender.capacity ∨ after.contents.held = []) := by
  unfold DocumentWriter.makeRoom at hroom
  split at hroom
  · rename_i hfits
    obtain ⟨rfl, rfl⟩ := of_pure hroom
    have hle : after.contents.held.length + bytes.length ≤ Appender.capacity :=
      of_decide_eq_true hfits
    refine ⟨h, ?_⟩
    rw [← List.length_eq_zero_iff]
    omega
  · obtain ⟨contents, flushed, hflush, hrest⟩ := of_bind hroom
    obtain ⟨rfl, rfl⟩ := of_pure hrest
    obtain ⟨hcontents, hheld⟩ := h.contents.flush hown hflush
    exact ⟨⟨hcontents, h.extents⟩, Or.inr hheld⟩

/-- A content that is appended becomes the last one of its document. -/
theorem Stores.append (h : Stores own name added writer disk) (hown : own name)
    (hroom : (Bytes.ofText content).length < Appender.capacity ∨ writer.contents.held = [])
    (happend : Yields (writer.append document (Bytes.ofText content)) disk after later) :
    Stores own name (added ++ [(document, content)]) after later := by
  unfold DocumentWriter.append at happend
  obtain ⟨contents, accepted, haccept, hrest⟩ := of_bind happend
  obtain ⟨rfl, rfl⟩ := of_pure hrest
  refine ⟨?_, fun other => ?_⟩
  · rw [contentsOf_concat]
    exact h.contents.accept hown hroom haccept
  · rw [contentsOf_concat, lastContent_concat]
    show ((writer.extents.set document _).get other).Holds _ _
    rw [DocumentExtents.get_set]
    split
    · rw [h.contents.length_eq]
      exact Extent.holds_last _ _
    · exact (h.extents other).append _

/-- Adding a document stores it with those before it. -/
theorem Stores.add (h : Stores own name added writer disk) (hown : own name)
    (hadd : Yields (writer.add document content) disk after later) :
    Stores own name (added ++ [(document, content)]) after later := by
  unfold DocumentWriter.add at hadd
  obtain ⟨roomy, between, hmake, happend⟩ := of_bind hadd
  obtain ⟨hstores, hroom⟩ := h.makeRoom hown hmake
  exact hstores.append hown hroom happend

/-- A writer takes in any number of contents. -/
theorem Stores.addAll (h : Stores own name done writer disk) (hown : own name)
    (hadd : Yields (writer.addAll added) disk after later) :
    Stores own name (done ++ added) after later := by
  induction added generalizing done writer disk with
  | nil =>
      obtain ⟨rfl, rfl⟩ := of_pure hadd
      rw [List.append_nil]
      exact h
  | cons entry added ih =>
      obtain ⟨document, content⟩ := entry
      unfold DocumentWriter.addAll at hadd
      obtain ⟨between, disk', hfirst, hrest⟩ := of_bind hadd
      have hall := ih (h.add hown hfirst) hrest
      rwa [List.append_assoc] at hall

/-- A store that was finished has all contents in one file and all extents in the other. -/
theorem Stores.finish (h : Stores own name added writer disk) (hown : own name)
    (hplaces : own placesName) (hne : name ≠ placesName)
    (hfinish : Yields (writer.finish placesName) disk result later) :
    later.file? name = some (contentsOf added) ∧
      later.file? placesName = some writer.extents.toBytes := by
  unfold DocumentWriter.finish at hfinish
  obtain ⟨flushed, between, hflush, hwrite⟩ := of_bind hfinish
  obtain ⟨⟨front, hfills, hfront⟩, hheld⟩ := h.contents.flush hown hflush
  obtain ⟨htouches, -, hfile⟩ := Disk.of_write hfills.separate hplaces hwrite
  rw [hheld, List.append_nil] at hfront
  rw [htouches.files name hown hne, hfills.file, hfront]
  exact ⟨rfl, hfile⟩

/-! ## Success -/

/-- A document can be added. -/
theorem succeeds_add (writer : DocumentWriter) (document : DocumentId) (content : String) :
    Disk.Succeeds (writer.add document content) := by
  refine Disk.Succeeds.bind ?_ fun roomy =>
    (roomy.contents.succeeds_accept _).bind fun _ => Disk.succeeds_pure _
  unfold makeRoom
  split
  · exact Disk.succeeds_pure writer
  · exact writer.contents.succeeds_flush.bind fun _ => Disk.succeeds_pure _

/-- Documents can be added one after another. -/
theorem succeeds_addAll (writer : DocumentWriter) (added : List (DocumentId × String)) :
    Disk.Succeeds (writer.addAll added) := by
  induction added generalizing writer with
  | nil => exact Disk.succeeds_pure writer
  | cons entry added ih => exact (writer.succeeds_add entry.1 entry.2).bind ih

/-- The files of documents can be written. -/
theorem succeeds_writeAll (contentsName placesName : String)
    (added : List (DocumentId × String)) :
    Disk.Succeeds (writeAll contentsName placesName added) := by
  have hcreate : Disk.Succeeds (create contentsName) :=
    (Appender.succeeds_create contentsName).bind fun _ => Disk.succeeds_pure _
  refine hcreate.bind fun writer => (writer.succeeds_addAll added).bind fun full => ?_
  exact full.contents.succeeds_flush.bind fun _ => Disk.succeeds_write _ _

/-- **Documents come back as they were last added.** A store of two files that were written has
the last content of each document, whatever was added before: none for a document that was never
added, or whose last content is empty. Nothing fails while it is read, and nothing fails while it is
written if the disk does not. -/
theorem last_read_back {contentsName placesName : String} (added : List (DocumentId × String))
    (hseparate : Disk.Separate (fun name => name = contentsName ∨ name = placesName) disk)
    (hne : contentsName ≠ placesName) (hsize : (contentsOf added).length < 2 ^ 63) :
    (disk.Willing → ∃ later, Yields (writeAll contentsName placesName added) disk () later) ∧
    ∀ later, Yields (writeAll contentsName placesName added) disk () later → ∀ document,
      (DocumentStore.ofFiles (later.file? contentsName) (later.file? placesName)).get document =
        .ok (if lastContent added document = "" then none
          else some (lastContent added document)) := by
  refine ⟨fun hwilling => ?_, fun later hwrite document => ?_⟩
  · obtain ⟨_, later, hwrite, -⟩ := succeeds_writeAll contentsName placesName added disk hwilling
    exact ⟨later, hwrite⟩
  · unfold writeAll at hwrite
    obtain ⟨first, created, hcreate, hwrite⟩ := of_bind hwrite
    obtain ⟨last, filled, hadd, hfinish⟩ := of_bind hwrite
    have hstores := (of_create hseparate (Or.inl rfl) hcreate).addAll (Or.inl rfl) hadd
    obtain ⟨hcontents, hplaces⟩ :=
      hstores.finish (Or.inl rfl) (Or.inr rfl) hne hfinish
    rw [hcontents, hplaces]
    exact DocumentStore.get_ofFiles (hstores.extents document) hsize

/-- Documents that come out of order, with a gap, one that comes again with another content and one
that comes again without any. -/
def repeatedDocuments : List (DocumentId × String) :=
  [(2, "ab"), (5, "d"), (0, "e"), (2, "c"), (5, "")]

/-- The second content of the one document is found, and none of the other one. -/
theorem last_read_back_repeated :
    (contentsOf repeatedDocuments).length < 2 ^ 63 ∧
    ∃ later, Yields (writeAll "contents" "places" repeatedDocuments) { present := true } () later ∧
      let store := DocumentStore.ofFiles (later.file? "contents") (later.file? "places")
      store.get 0 = .ok (some "e") ∧ store.get 1 = .ok none ∧ store.get 2 = .ok (some "c") ∧
        store.get 5 = .ok none ∧ store.get 6 = .ok none := by
  have hsize : (contentsOf repeatedDocuments).length < 2 ^ 63 := by decide
  have hseparate : Disk.Separate (fun name => name = "contents" ∨ name = "places")
      { present := true } := by
    refine ⟨fun name file _ hfile => ?_, fun name other file _ _ hfile _ => ?_⟩
    · cases hfile
    · cases hfile
  obtain ⟨hsucceeds, hread⟩ := last_read_back repeatedDocuments hseparate (by decide) hsize
  obtain ⟨later, hwrite⟩ := hsucceeds ⟨rfl, fun _ => rfl⟩
  exact ⟨hsize, later, hwrite, hread later hwrite 0, hread later hwrite 1, hread later hwrite 2,
    hread later hwrite 5, hread later hwrite 6⟩

end DocumentWriter
end Concordance
