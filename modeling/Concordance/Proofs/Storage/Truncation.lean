import Concordance.Proofs.Fusion.CommonTokens
import Concordance.Proofs.Storage.TokenDirectory
import Concordance.Proofs.Text.ByteOrder
import Mathlib.Order.Bounds.Basic

/-!
# Files that end early

The file of a token directory, like that of a set of common tokens, holds a number and then one
piece of bytes for each entry. Reading the pieces goes on until the input ends
(`Reader.takeUntilEnd`), so a file from which the last bytes are missing is read as the table of the
entries of which nothing is missing (`cut_tables_exact`).
-/

namespace Concordance

/-! ## Pieces -/

/-- These are as many pieces as lie within the first `limit` bytes, from the first piece on, if the
pieces stand one behind the other from a place on. -/
def Bytes.Whole (begin : Nat) (pieces : List Bytes) (limit kept : Nat) : Prop :=
  IsGreatest {count | count ≤ pieces.length ∧
    ∀ index < count, begin + (pieces.take (index + 1)).flatten.length ≤ limit} kept

namespace Bytes

variable {begin limit kept : Nat} {piece : Bytes} {pieces : List Bytes}

/-- There is only one number of whole pieces. -/
theorem Whole.unique {other : Nat} (h : Whole begin pieces limit kept)
    (hother : Whole begin pieces limit other) : kept = other :=
  IsGreatest.unique h hother

/-- Without pieces none is whole. -/
theorem whole_nil : Whole begin [] limit 0 :=
  ⟨⟨Nat.le_refl 0, fun _ h => absurd h (Nat.not_lt_zero _)⟩, fun _ h => h.1⟩

/-- If the first piece does not lie within the limit, no piece does. -/
theorem whole_zero (h : limit < begin + piece.length) : Whole begin (piece :: pieces) limit 0 := by
  refine ⟨⟨Nat.zero_le _, fun _ h => absurd h (Nat.not_lt_zero _)⟩, fun count hcount => ?_⟩
  by_contra hpos
  have hfirst := hcount.2 0 (by omega)
  rw [List.take_succ_cons, List.flatten_cons, List.length_append] at hfirst
  omega

/-- The pieces after the first one stand from its end on. -/
theorem Whole.cons (hpiece : begin + piece.length ≤ limit)
    (h : Whole (begin + piece.length) pieces limit kept) :
    Whole begin (piece :: pieces) limit (kept + 1) := by
  have hends : ∀ index, begin + ((piece :: pieces).take (index + 1 + 1)).flatten.length =
      begin + piece.length + (pieces.take (index + 1)).flatten.length := by
    intro index
    rw [List.take_succ_cons, List.flatten_cons, List.length_append, Nat.add_assoc]
  refine ⟨⟨Nat.succ_le_succ h.1.1, fun index hindex => ?_⟩, fun count hcount => ?_⟩
  · cases index with
    | zero => simpa using hpiece
    | succ index =>
        rw [hends]
        exact h.1.2 index (Nat.lt_of_succ_lt_succ hindex)
  · cases count with
    | zero => exact Nat.zero_le _
    | succ count =>
        refine Nat.succ_le_succ (h.2 ⟨Nat.le_of_succ_le_succ hcount.1, fun index hindex => ?_⟩)
        rw [← hends]
        exact hcount.2 (index + 1) (Nat.succ_lt_succ hindex)

/-- All pieces lie within a limit behind their end. -/
theorem whole_all (h : begin + pieces.flatten.length ≤ limit) :
    Whole begin pieces limit pieces.length := by
  induction pieces generalizing begin with
  | nil => exact whole_nil
  | cons piece pieces ih =>
      rw [List.flatten_cons, List.length_append] at h
      exact Whole.cons (by omega) (ih (by omega))

end Bytes

/-! ## Reading pieces -/

namespace Reader

variable {α σ : Type}

/-- As many values are taken and added as have all their bytes. -/
theorem takeUntilEnd_cut {take : Reader → Except Failure (α × Reader)} (add : σ → α → σ)
    {values : List α} {bytesOf : α → Bytes} {reader : Reader} {begin limit : Nat} (state : σ)
    (hreads : ∀ value ∈ values, Reads take (bytesOf value) value) (hbegin : begin ≤ limit)
    (h : reader.rest = (values.flatMap bytesOf).take (limit - begin)) :
    ∃ kept, Bytes.Whole begin (values.map bytesOf) limit kept ∧
      takeUntilEnd take add state reader values.length =
        .ok ((values.take kept).foldl add state) := by
  induction values generalizing reader begin state with
  | nil => exact ⟨0, Bytes.whole_nil, rfl⟩
  | cons value values ih =>
      obtain ⟨hvalue, hvalues⟩ := List.forall_mem_cons.1 hreads
      rw [List.flatMap_cons] at h
      by_cases hshort : limit < begin + (bytesOf value).length
      · rw [List.take_append_of_le_length (by omega)] at h
        refine ⟨0, Bytes.whole_zero hshort, ?_⟩
        rw [List.length_cons, takeUntilEnd, hvalue.cut reader _ (by omega) h]
        rfl
      · rw [List.take_append, List.take_of_length_le (by omega), Nat.sub_sub] at h
        obtain ⟨later, hlater, hstep⟩ := takeUntilEnd_succ hvalue h add state values.length
        obtain ⟨kept, hkept, hrest⟩ :=
          @ih later (begin + (bytesOf value).length) (add state value) hvalues (by omega) hlater
        exact ⟨kept + 1, Bytes.Whole.cons (by omega) hkept, hstep.trans hrest⟩

/-- Take the number of the values, and then the values until the input ends. -/
def takeCounted (take : Reader → Except Failure (α × Reader)) (add : σ → α → σ) (state : σ)
    (file : Bytes) : Except Failure σ :=
  match takeInt32 ⟨file, 0, {}⟩ with
  | .ok (count, reader) => takeUntilEnd take add state reader count.toInt.toNat
  | .error failure => if failure.isTruncation then .ok state else .error failure

/-- The bytes of some values behind their number. -/
def countedBytes (bytesOf : α → Bytes) (values : List α) : Bytes :=
  (Record.int32 values.length.toUInt32.toInt32).toBytes ++ values.flatMap bytesOf

/-- From a file that was cut, as many values are taken as have all their bytes. -/
theorem takeCounted_cut {take : Reader → Except Failure (α × Reader)} (add : σ → α → σ)
    {values : List α} {bytesOf : α → Bytes} (state : σ)
    (hreads : ∀ value ∈ values, Reads take (bytesOf value) value)
    (hcount : values.length < 2 ^ 31) (limit : Nat) :
    ∃ kept, Bytes.Whole 4 (values.map bytesOf) limit kept ∧
      takeCounted take add state ((countedBytes bytesOf values).take limit) =
        .ok ((values.take kept).foldl add state) := by
  have hfour : (Record.int32 values.length.toUInt32.toInt32).toBytes.length = 4 := by
    rw [Record.toBytes, Bytes.length_ofUInt32]
  have hnumber := reads_takeInt32 values.length.toUInt32.toInt32
  by_cases hshort : limit < 4
  · have hcut := hnumber.cut ⟨(countedBytes bytesOf values).take limit, 0, {}⟩ limit (by omega)
      (List.take_append_of_le_length (by omega))
    refine ⟨0, ?_, ?_⟩
    · cases values with
      | nil => exact Bytes.whole_nil
      | cons value values => exact Bytes.whole_zero (by omega)
    · rw [takeCounted, hcut]
      rfl
  · obtain ⟨later, htake, hlater⟩ := hnumber.whole
      ⟨(countedBytes bytesOf values).take limit, 0, {}⟩ ((values.flatMap bytesOf).take (limit - 4))
      (by rw [countedBytes, List.take_append, List.take_of_length_le (by omega), hfour])
    obtain ⟨kept, hkept, hrest⟩ :=
      takeUntilEnd_cut add state hreads (Nat.le_of_not_lt hshort) hlater
    refine ⟨kept, hkept, ?_⟩
    rw [takeCounted, htake]
    show takeUntilEnd take add state later _ = _
    rw [Record.toNat_int32 hcount, hrest]

end Reader

/-! ## Tables -/

/-- A file has the pieces of all entries of a table, in the order of the bytes of their keys. The
table is read from it, and from the first bytes of it the entries whose pieces are there as a
whole. -/
structure KeepsWhole {α : Type} (table : Table α) (pieceOf : String × α → Bytes)
    (read : Bytes → Except Failure (Table α)) (file : Bytes) : Prop where
  layout : file = Reader.countedBytes pieceOf table.entries
  ascending : table.entries.Pairwise fun first second =>
    Bytes.ofText first.1 < Bytes.ofText second.1
  whole : read file = .ok table
  cut : ∀ limit, ∃ kept, Bytes.Whole 4 (table.entries.map pieceOf) limit kept ∧
    read (file.take limit) = .ok (table.front kept)

/-- A table is read from the whole of its file if it is read from the first bytes of it. -/
theorem KeepsWhole.of_cut {α : Type} {table : Table α} {pieceOf : String × α → Bytes}
    {read : Bytes → Except Failure (Table α)}
    (hcut : ∀ limit, ∃ kept, Bytes.Whole 4 (table.entries.map pieceOf) limit kept ∧
      read ((Reader.countedBytes pieceOf table.entries).take limit) = .ok (table.front kept)) :
    KeepsWhole table pieceOf read (Reader.countedBytes pieceOf table.entries) := by
  refine ⟨rfl, table.sorted.imp Bytes.ofText_lt_iff.2, ?_, hcut⟩
  have hlength : (Reader.countedBytes pieceOf table.entries).length =
      4 + (table.entries.map pieceOf).flatten.length := by
    rw [Reader.countedBytes, List.length_append, Record.toBytes, Bytes.length_ofUInt32,
      List.flatMap_def]
  obtain ⟨kept, hkept, hread⟩ := hcut (Reader.countedBytes pieceOf table.entries).length
  have hall : kept = table.size := by
    rw [hkept.unique (Bytes.whole_all (Nat.le_of_eq hlength.symm)), List.length_map]
    rfl
  rw [List.take_length, hall, Table.front_size] at hread
  exact hread

namespace TokenDirectory

/-- A directory whose numbers and tokens fit into its file. -/
structure Storable (directory : TokenDirectory) : Prop where
  size : directory.size < 2 ^ 31
  tokens : ∀ entry ∈ directory.entries, (Bytes.ofText entry.1).length < 2 ^ 32
  starts : ∀ entry ∈ directory.entries, entry.2.start < 2 ^ 63
  lengths : ∀ entry ∈ directory.entries, entry.2.length < 2 ^ 63
  documents : ∀ entry ∈ directory.entries, entry.2.documents.toNat < 2 ^ 31

variable {directory : TokenDirectory}

/-- A directory that fits into its file is written. -/
theorem Storable.exists_toBytes (h : directory.Storable) :
    directory.toBytes = .ok (Reader.countedBytes entryBytes directory.entries) := by
  have hentries : ∀ entry ∈ directory.entries, ∀ writer : Writer,
      ∃ later, writer.putAll (entryRecords entry.1 entry.2) = .ok later := by
    intro entry hentry writer
    refine Writer.exists_putAll ?_ writer
    rw [entryRecords, List.forall_mem_cons]
    exact ⟨decide_eq_true (h.tokens entry hentry), by simp [Record.fits]⟩
  suffices hwritten : ∃ bytes, directory.toBytes = .ok bytes by
    obtain ⟨bytes, hbytes⟩ := hwritten
    rw [hbytes, (of_toBytes hbytes).2.2]
    rfl
  obtain ⟨written, hwritten⟩ := Success.exists_foldlM hentries
    (Writer.putBytes {} (Record.int32 directory.size.toUInt32.toInt32).toBytes)
  refine ⟨written.toBytes, ?_⟩
  refine (if_pos h.size).trans ?_
  exact congrArg (· >>= fun later : Writer => pure later.toBytes) hwritten

/-- The file of a directory is read as a number of entries, which are put into a table. -/
theorem ofFile_eq (file : Bytes) :
    ofFile (some file) = Reader.takeCounted takeEntry
      (fun table entry => table.insert entry.1 entry.2) Table.empty file := by
  simp only [ofFile, Reader.takeCounted]
  rcases Reader.takeInt32 ⟨file, 0, {}⟩ with failure | ⟨count, reader⟩
  · rfl
  · exact takeEntries_eq Table.empty reader _

/-- The entries of a directory that fits into its file are read back as they are. -/
theorem Storable.reads (h : directory.Storable) {entry : String × TokenEntry}
    (hentry : entry ∈ directory.entries) : Reader.Reads takeEntry (entryBytes entry) entry := by
  have hreads := @reads_takeEntry entry (decide_eq_true (h.tokens entry hentry))
  have hdocuments : UInt32.ofNat entry.2.documents.toInt32.toInt.toNat = entry.2.documents := by
    have hcount := Record.toNat_int32 (h.documents entry hentry)
    rw [Nat.toUInt32, UInt32.ofNat_toNat] at hcount
    rw [hcount, UInt32.ofNat_toNat]
  rw [TokenEntry.stored, Record.toNat_int64 (h.starts entry hentry),
    Record.toNat_int64 (h.lengths entry hentry), hdocuments] at hreads
  exact hreads

/-- A directory keeps its whole entries when its file is cut. -/
theorem Storable.keepsWhole (h : directory.Storable) :
    KeepsWhole directory entryBytes (fun file => ofFile (some file))
      (Reader.countedBytes entryBytes directory.entries) := by
  refine KeepsWhole.of_cut fun limit => ?_
  obtain ⟨kept, hkept, hread⟩ := Reader.takeCounted_cut
    (fun table (entry : String × TokenEntry) => table.insert entry.1 entry.2) Table.empty
    (fun _ => h.reads) h.size limit
  refine ⟨kept, hkept, ?_⟩
  rw [ofFile_eq, hread]
  exact congrArg Except.ok (Table.ofList_entries (Table.front directory kept))

end TokenDirectory

namespace CommonTokens

/-- A set of tokens whose number and tokens fit into its file. -/
structure Storable (common : CommonTokens) : Prop where
  size : common.size < 2 ^ 31
  tokens : ∀ token ∈ common.toList, (Bytes.ofText token).length < 2 ^ 32

variable {common : CommonTokens}

/-- The bytes of a token. -/
def tokenBytes (entry : String × Unit) : Bytes :=
  (Record.text entry.1).toBytes

/-- The file of common tokens is read as a number of texts, which are put into a set. -/
theorem ofFile_eq (file : Bytes) :
    ofFile (some file) = Reader.takeCounted Reader.takeText insert empty file := by
  simp only [ofFile, Reader.takeCounted]
  rcases Reader.takeInt32 ⟨file, 0, {}⟩ with failure | ⟨count, reader⟩
  · rfl
  · exact takeTokens_eq empty reader _

/-- A set that fits into its file is written. -/
theorem Storable.exists_toBytes (h : common.Storable) :
    common.toBytes = .ok (Reader.countedBytes tokenBytes common.table.entries) := by
  have hfits : ∀ record ∈ common.toList.map Record.text, record.fits = true := by
    intro record hrecord
    obtain ⟨token, htoken, rfl⟩ := List.mem_map.1 hrecord
    exact decide_eq_true (h.tokens token htoken)
  suffices hwritten : ∃ bytes, common.toBytes = .ok bytes by
    obtain ⟨bytes, hbytes⟩ := hwritten
    rw [hbytes, (of_toBytes hbytes).2, toList, Table.keys, List.map_map, List.flatMap_map]
    rfl
  obtain ⟨written, hwritten⟩ := Writer.exists_putAll hfits
    (Writer.putBytes {} (Record.int32 common.size.toUInt32.toInt32).toBytes)
  exact ⟨written.toBytes, congrArg (· >>= fun later : Writer => pure later.toBytes) hwritten⟩

/-- A set keeps its whole tokens when its file is cut. -/
theorem Storable.keepsWhole (h : common.Storable) :
    KeepsWhole common.table tokenBytes
      (fun file => (ofFile (some file)).map CommonTokens.table)
      (Reader.countedBytes tokenBytes common.table.entries) := by
  refine KeepsWhole.of_cut fun limit => ?_
  have hbytes : Reader.countedBytes tokenBytes common.table.entries =
      Reader.countedBytes (fun token => (Record.text token).toBytes) common.toList := by
    rw [Reader.countedBytes, Reader.countedBytes, toList, Table.keys, List.length_map,
      List.flatMap_map]
    rfl
  obtain ⟨kept, hkept, hread⟩ := Reader.takeCounted_cut insert empty
    (fun token htoken => Reader.reads_takeText (decide_eq_true (h.tokens token htoken)))
    ((List.length_map _).trans_lt h.size) limit
  refine ⟨kept, ?_, ?_⟩
  · rw [toList, Table.keys, List.map_map] at hkept
    exact hkept
  · have hfront := ofList_toList ⟨common.table.front kept⟩
    rw [ofFile_eq, hbytes, hread]
    rw [ofList, toList, Table.keys, Table.front, List.map_take] at hfront
    exact congrArg (fun common => Except.ok (CommonTokens.table common)) hfront

end CommonTokens

/-! ## Files that end early -/

/-- A token directory that fits into its file has one with its entries in the order of the bytes of
their tokens, and so has a set of common tokens. The first bytes of it are read as the table of the
entries whose bytes are all there, and the whole of it as the table itself. -/
theorem cut_tables_exact {directory : TokenDirectory} {common : CommonTokens}
    (hdirectory : directory.Storable) (hcommon : common.Storable) :
    (∃ file, directory.toBytes = .ok file ∧
      KeepsWhole directory TokenDirectory.entryBytes
        (fun file => TokenDirectory.ofFile (some file)) file) ∧
    ∃ file, common.toBytes = .ok file ∧
      KeepsWhole common.table CommonTokens.tokenBytes
        (fun file => (CommonTokens.ofFile (some file)).map CommonTokens.table) file :=
  ⟨⟨_, hdirectory.exists_toBytes, hdirectory.keepsWhole⟩,
    _, hcommon.exists_toBytes, hcommon.keepsWhole⟩

/-- A directory of two tokens keeps the first one if the second one ends in its last number, and a
set keeps the first one if the second one ends in its text. -/
theorem cut_tables_exact_inside_entry :
    (∃ file, TokenDirectory.toBytes (Table.ofList [("at my", ⟨64, 8, 1⟩), ("look", ⟨0, 24, 3⟩)]) =
        .ok file ∧
      TokenDirectory.ofFile (some (file.take 52)) = .ok (Table.ofList [("at my", ⟨64, 8, 1⟩)])) ∧
    ∃ file, (CommonTokens.ofList ["at", "my"]).toBytes = .ok file ∧
      (CommonTokens.ofFile (some (file.take 9))).map CommonTokens.table =
        .ok (Table.ofList [("at", ())]) := by
  have hdirectory : TokenDirectory.Storable
      (Table.ofList [("at my", ⟨64, 8, 1⟩), ("look", ⟨0, 24, 3⟩)]) :=
    ⟨by decide, by decide, by decide, by decide, by decide⟩
  have hcommon : (CommonTokens.ofList ["at", "my"]).Storable := ⟨by decide, by decide⟩
  obtain ⟨⟨file, hfile, hkeeps⟩, other, hother, hkeepsOther⟩ := cut_tables_exact hdirectory hcommon
  refine ⟨⟨file, hfile, ?_⟩, other, hother, ?_⟩
  · obtain ⟨kept, hkept, hread⟩ := hkeeps.cut 52
    have hone : kept = 1 :=
      hkept.unique (Bytes.Whole.cons (by decide +kernel) (Bytes.whole_zero (by decide +kernel)))
    rw [hread, hone]
    rfl
  · obtain ⟨kept, hkept, hread⟩ := hkeepsOther.cut 9
    have hone : kept = 1 :=
      hkept.unique (Bytes.Whole.cons (by decide +kernel) (Bytes.whole_zero (by decide +kernel)))
    rw [hread, hone]
    rfl

end Concordance
