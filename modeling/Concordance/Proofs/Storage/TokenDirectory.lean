import Concordance.Proofs.Record.Pieces
import Concordance.Proofs.Table
import Concordance.Storage.TokenDirectory

/-!
# Reading back token directories

The file of a token directory is read back entry by entry (`takeEntries_of_rest`). An entry comes
back with its numbers as they are stored (`TokenEntry.stored`), which are the numbers themselves as
long as they fit (`TokenEntry.stored_eq`).
-/

namespace Concordance

/-! ## Stored numbers -/

/-- An entry as it comes back from a file. -/
def TokenEntry.stored (entry : TokenEntry) : TokenEntry :=
  ⟨entry.start.toUInt64.toInt64.toInt.toNat, entry.length.toUInt64.toInt64.toInt.toNat,
    .ofNat entry.documents.toInt32.toInt.toNat⟩

/-- The place of a list comes back if it lies in a file of the greatest size. -/
theorem TokenEntry.stored_eq {entry : TokenEntry} (h : entry.start + entry.length < 2 ^ 63) :
    entry.stored =
      ⟨entry.start, entry.length, .ofNat entry.documents.toInt32.toInt.toNat⟩ := by
  rw [stored, Record.toNat_int64 (by omega), Record.toNat_int64 (by omega)]

namespace TokenDirectory

/-! ## Files -/

/-- The bytes of an entry. -/
def entryBytes (entry : String × TokenEntry) : Bytes :=
  (entryRecords entry.1 entry.2).flatMap Record.toBytes

/-- A directory that was written has few enough entries, its tokens have lengths that fit, and the
entries stand one after another. -/
theorem of_toBytes {directory : TokenDirectory} {bytes : Bytes}
    (h : directory.toBytes = .ok bytes) :
    directory.size < 2 ^ 31 ∧
      (∀ entry ∈ directory.entries, (Record.text entry.1).fits = true) ∧
      bytes = (Record.int32 directory.size.toUInt32.toInt32).toBytes ++
        directory.entries.flatMap entryBytes := by
  unfold toBytes at h
  split at h
  · rename_i hsize
    obtain ⟨counted, hcount, h⟩ := Success.eq_ok_of_bind h
    obtain ⟨written, hwritten, h⟩ := Success.eq_ok_of_bind h
    cases h
    have hentries := Success.foldlM_induction (fun done (now : Writer) =>
      (∀ entry ∈ done, (Record.text entry.1).fits = true) ∧
        now.toBytes = counted.toBytes ++ done.flatMap entryBytes) ?_ (by simp) hwritten
    · have hcounted := (Writer.of_put hcount).2
      rw [Writer.toBytes_empty, List.nil_append] at hcounted
      refine ⟨hsize, hentries.1, ?_⟩
      rw [hentries.2, hcounted]
    · intro done entry now next hnow hput
      obtain ⟨hfits, hbytes⟩ := Writer.of_putAll hput
      constructor
      · intro other hother
        rcases List.mem_append.1 hother with hother | hother
        · exact hnow.1 other hother
        · rw [List.mem_singleton.1 hother]
          exact hfits _ List.mem_cons_self
      · rw [hbytes, hnow.2, List.flatMap_append, List.append_assoc]
        simp [entryBytes]
  · cases h

/-! ## Reading -/

/-- An entry whose token has a length that fits is read back as it is stored. -/
theorem reads_takeEntry {entry : String × TokenEntry} (hfits : (Record.text entry.1).fits = true) :
    Reader.Reads takeEntry (entryBytes entry) (entry.1, entry.2.stored) := by
  have hbytes : entryBytes entry = (Record.text entry.1).toBytes ++
      ((Record.int64 entry.2.start.toUInt64.toInt64).toBytes ++
        ((Record.int64 entry.2.length.toUInt64.toInt64).toBytes ++
          (Record.int32 entry.2.documents.toInt32).toBytes)) := by
    simp [entryBytes, entryRecords]
  have hlast := (Reader.reads_takeInt32 entry.2.documents.toInt32).map fun documents =>
    (entry.1, { entry.2.stored with documents := .ofNat documents.toInt.toNat })
  rw [hbytes]
  exact (Reader.reads_takeText hfits).bind <| (Reader.reads_takeInt64 _).bind <|
    (Reader.reads_takeInt64 _).bind hlast

/-- Entries are taken until the input ends. -/
theorem takeEntries_eq (directory : TokenDirectory) (reader : Reader) (count : Nat) :
    takeEntries directory reader count =
      Reader.takeUntilEnd takeEntry (fun table entry => table.insert entry.1 entry.2) directory
        reader count := by
  induction count generalizing directory reader with
  | zero => rfl
  | succ count ih =>
      rw [takeEntries, Reader.takeUntilEnd]
      rcases takeEntry reader with failure | ⟨entry, later⟩
      · rfl
      · exact ih _ later

/-- Entries are read back one by one. -/
theorem takeEntries_of_rest {reader : Reader} {after : Bytes}
    {entries : List (String × TokenEntry)}
    (hfits : ∀ entry ∈ entries, (Record.text entry.1).fits = true)
    (h : reader.rest = entries.flatMap entryBytes ++ after) (directory : TokenDirectory) :
    takeEntries directory reader entries.length =
      .ok (entries.foldl (fun later entry => later.insert entry.1 entry.2.stored) directory) := by
  rw [takeEntries_eq]
  exact Reader.takeUntilEnd_of_rest _ (fun entry hentry => reads_takeEntry (hfits entry hentry)) h
    directory

/-- A directory comes back from its file, with the numbers of its entries as they are stored. -/
theorem ofFile_toBytes {directory : TokenDirectory} {bytes : Bytes}
    (h : directory.toBytes = .ok bytes) :
    ∃ found, ofFile (some bytes) = .ok found ∧
      ∀ token, found.find? token = (directory.find? token).map TokenEntry.stored := by
  obtain ⟨hsize, hfits, hbytes⟩ := of_toBytes h
  obtain ⟨later, htake, hrest⟩ := @Reader.takeInt32_of_rest ⟨bytes, 0, {}⟩ _ _ hbytes
  have hentries := takeEntries_of_rest hfits (hrest.trans (List.append_nil _).symm) Table.empty
  refine ⟨_, ?_, Table.find?_foldl_insert directory TokenEntry.stored⟩
  simp only [ofFile, htake, Record.toNat_int32 hsize]
  exact hentries

end TokenDirectory
end Concordance
