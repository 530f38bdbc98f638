import Concordance.Indexing.Batch
import Concordance.Indexing.BatchSource
import Concordance.Proofs.Record.Script

/-!
# Reading back batch files

A batch file holds the lists of its batch one after another (`Batch.of_toBytes`). A source that
reads it delivers these lists in order: whenever it is advanced, it goes on to the next one
(`BatchSource.Delivers.advance`). If the checksum behind the lists is right, it can be advanced
until it has delivered all of them (`BatchSource.Intact.exists_advance`).
-/

namespace Concordance

/-! ## Writing -/

namespace Batch

/-- The bytes of a unit with its list. -/
def listBytes (entry : String × Postings) : Bytes :=
  (listRecords entry.1 entry.2).flatMap Record.toBytes

/-- A batch that was written has texts with lengths that fit. Its file has the number of lists and
the lists one after another, and behind them the checksum of all this. -/
theorem of_toBytes {batch : Batch} {bytes : Bytes} (h : batch.toBytes = .ok bytes) :
    (∀ entry ∈ batch.lists, (Record.text entry.1).fits = true) ∧
      ∃ content, content = Bytes.ofUInt32 batch.lists.length.toUInt32 ++
          batch.lists.flatMap listBytes ∧
        bytes = content ++ Bytes.ofUInt32 (Checksum.ofBytes content) := by
  unfold toBytes at h
  obtain ⟨counted, hcount, h⟩ := Success.eq_ok_of_bind h
  obtain ⟨written, hwritten, h⟩ := Success.eq_ok_of_bind h
  cases h
  have hlists := Success.foldlM_induction (fun done (now : Writer) =>
    (∀ entry ∈ done, (Record.text entry.1).fits = true) ∧
      Writer.Adds counted now (done.flatMap listBytes)) ?_
    ⟨by simp, Writer.adds_nothing counted⟩ hwritten
  · exact ⟨hlists.1, _, rfl, ((Writer.adds_of_put hcount).trans hlists.2).sealed_eq⟩
  · intro done entry now next hnow hput
    rw [List.flatMap_append, List.flatMap_singleton, List.forall_mem_append,
      List.forall_mem_singleton]
    exact ⟨⟨hnow.1, (Writer.of_putAll hput).1 _ List.mem_cons_self⟩,
      hnow.2.trans (Writer.adds_of_putAll hput)⟩

/-- The numbers of lists and of their words can be stored in 32 bits. -/
structure Countable (batch : Batch) : Prop where
  lists : batch.lists.length < 2 ^ 32
  words : ∀ entry ∈ batch.lists, entry.2.length < 2 ^ 32

/-- Whether the numbers in a batch have 32 bits can be checked. -/
instance (batch : Batch) : Decidable batch.Countable :=
  decidable_of_iff (batch.lists.length < 2 ^ 32 ∧ ∀ entry ∈ batch.lists, entry.2.length < 2 ^ 32)
    ⟨fun ⟨hlists, hwords⟩ => ⟨hlists, hwords⟩, fun ⟨hlists, hwords⟩ => ⟨hlists, hwords⟩⟩

end Batch

/-! ## Reading -/

namespace BatchSource

/-- What is ahead of a source, after the unit it delivers next. -/
structure Ahead (source : BatchSource) (lists : List (String × Postings)) : Prop where
  remaining : source.remaining = lists.length
  rest : ∃ after, source.reader.rest = lists.flatMap Batch.listBytes ++ after
  fits : ∀ entry ∈ lists, (Record.text entry.1).fits = true ∧ entry.2.length < 2 ^ 32

/-- A source that still delivers these lists. -/
structure Delivers (source : BatchSource) (lists : List (String × Postings)) : Prop where
  next : source.next = lists.head?
  ahead : source.Ahead lists.tail

/-- A unit is read back with its list. -/
theorem takeList_of_rest {reader : Reader} {entry : String × Postings} {after : Bytes}
    (hfits : (Record.text entry.1).fits = true) (hwords : entry.2.length < 2 ^ 32)
    (h : reader.rest = Batch.listBytes entry ++ after) :
    Reader.Takes (takeList reader) entry after := by
  have hrest : reader.rest = (Record.text entry.1).toBytes ++
      (Bytes.ofUInt32 entry.2.length.toUInt32 ++ ((Record.words entry.2).toBytes ++ after)) := by
    rw [h]
    simp [Batch.listBytes, Batch.listRecords, Record.toBytes]
  have hcount : entry.2.length.toUInt32.toNat = entry.2.length := Nat.mod_eq_of_lt hwords
  obtain ⟨afterText, htext, hrest⟩ := Reader.takeText_of_rest hfits hrest
  obtain ⟨afterCount, hlength, hrest⟩ := Reader.takeUInt32_of_rest hrest
  obtain ⟨afterWords, htake, hrest⟩ := Reader.takeWords_of_rest hrest
  refine ⟨afterWords, ?_, hrest⟩
  simp only [takeList, htext, hlength, hcount, htake, bind, Except.bind, pure, Except.pure]

/-- Reading on delivers what is ahead. -/
theorem Ahead.advance {source later : BatchSource} {lists : List (String × Postings)}
    (h : source.Ahead lists) (hadvance : source.advance = .ok later) : later.Delivers lists := by
  cases lists with
  | nil =>
      have hnone : source.remaining = 0 := h.remaining
      unfold BatchSource.advance at hadvance
      rw [hnone] at hadvance
      obtain ⟨⟨intact, reader⟩, hverify, hadvance⟩ := Success.eq_ok_of_bind hadvance
      simp only at hadvance
      split at hadvance
      · cases hadvance
        refine ⟨rfl, rfl, ⟨reader.rest, rfl⟩, ?_⟩
        intro entry hentry
        cases hentry
      · cases hadvance
  | cons entry rest =>
      obtain ⟨after, hrest⟩ := h.rest
      rw [List.flatMap_cons, List.append_assoc] at hrest
      obtain ⟨hfits, hwords⟩ := h.fits entry List.mem_cons_self
      obtain ⟨reader, htake, hreader⟩ := takeList_of_rest hfits hwords hrest
      unfold BatchSource.advance at hadvance
      rw [show source.remaining = rest.length + 1 from h.remaining] at hadvance
      simp only [htake, bind, Except.bind, pure, Except.pure] at hadvance
      cases hadvance
      exact ⟨rfl, rfl, ⟨after, hreader⟩,
        fun other hother => h.fits other (List.mem_cons_of_mem _ hother)⟩

/-- A source that is advanced goes on to the next list. -/
theorem Delivers.advance {source later : BatchSource} {lists : List (String × Postings)}
    (h : source.Delivers lists) (hadvance : source.advance = .ok later) :
    later.Delivers lists.tail :=
  h.ahead.advance hadvance

/-- A file is opened behind the number in front of it. -/
theorem ofBytes_file (path : String) (count : UInt32) (rest : Bytes) :
    ofBytes path (Bytes.ofUInt32 count ++ rest) = .ok
      { path
        reader :=
          Reader.advance { rest := Bytes.ofUInt32 count ++ rest } (Bytes.ofUInt32 count) rest
        remaining := count.toNat } := by
  obtain ⟨reader, htake, rfl⟩ :=
    @Reader.takeUInt32_of_rest { rest := Bytes.ofUInt32 count ++ rest } rest count rfl
  have hreader := (Reader.passed_takeUInt32 htake).eq_advance rfl
  rw [ofBytes, htake, ← hreader]
  rfl

/-- A source that was opened on the file of a batch has all lists of the batch ahead. -/
theorem ahead_of_ofBytes {batch : Batch} {bytes : Bytes} (hcountable : batch.Countable)
    (hbytes : batch.toBytes = .ok bytes) {path : String} {source : BatchSource}
    (h : ofBytes path bytes = .ok source) : source.Ahead batch.lists := by
  obtain ⟨hfits, content, rfl, rfl⟩ := Batch.of_toBytes hbytes
  rw [List.append_assoc, ofBytes_file] at h
  cases h
  exact ⟨Nat.mod_eq_of_lt hcountable.lists, ⟨_, rfl⟩,
    fun entry hentry => ⟨hfits entry hentry, hcountable.words entry hentry⟩⟩

/-! ## Reading to the end -/

/-- Reading a unit and its list accounts for all their bytes. -/
theorem passed_takeList {reader later : Reader} {entry : String × Postings}
    (h : takeList reader = .ok (entry, later)) : reader.Passed later := by
  obtain ⟨⟨_, afterText⟩, htext, h⟩ := Success.eq_ok_of_bind h
  obtain ⟨⟨_, afterCount⟩, hcount, h⟩ := Success.eq_ok_of_bind h
  obtain ⟨⟨_, afterWords⟩, hwords, h⟩ := Success.eq_ok_of_bind h
  cases h
  obtain ⟨_, hbytes⟩ := Reader.of_map hwords
  exact ((Reader.passed_takeText htext).trans (Reader.passed_takeUInt32 hcount)).trans
    (Reader.passed_takeBytes hbytes)

/-- These lists are ahead of a source, and behind them stands the checksum of all that will have
been read then. -/
structure Intact (source : BatchSource) (lists : List (String × Postings)) : Prop where
  ahead : source.Ahead lists
  checksum : source.reader.rest = lists.flatMap Batch.listBytes ++
    Bytes.ofUInt32 (source.reader.checksum.add (lists.flatMap Batch.listBytes)).value

/-- An intact source can be advanced, and it is still intact if it was not at its end. -/
theorem Intact.exists_advance {source : BatchSource} {lists : List (String × Postings)}
    (h : source.Intact lists) :
    ∃ later, source.advance = .ok later ∧ (lists ≠ [] → later.Intact lists.tail) := by
  obtain ⟨hahead, hrest⟩ := h
  have hremaining := hahead.remaining
  cases lists with
  | nil =>
      have hverify := @Reader.verify_of_rest source.reader [] (by rw [List.append_nil]; exact hrest)
      refine ⟨{ source with reader := { source.reader with rest := [] }, next := none }, ?_,
        fun hne => absurd rfl hne⟩
      rw [advance, show source.remaining = 0 from hremaining, hverify]
      rfl
  | cons entry rest =>
      rw [List.flatMap_cons, List.append_assoc] at hrest
      obtain ⟨hfits, hwords⟩ := hahead.fits entry List.mem_cons_self
      obtain ⟨reader, htake, hreader⟩ := takeList_of_rest hfits hwords hrest
      have hpassed := (passed_takeList htake).eq_advance (hreader ▸ hrest)
      have hadvance : source.advance =
          .ok { source with reader, remaining := rest.length, next := some entry } := by
        rw [advance, show source.remaining = rest.length + 1 from hremaining, htake]
        rfl
      refine ⟨_, hadvance, fun _ => ⟨(hahead.advance hadvance).ahead, ?_⟩⟩
      -- the checksum goes on from the bytes of the list that was read
      rw [hreader, hpassed]
      simp only [Reader.advance, Checksum.add, List.foldl_append, List.tail_cons]

/-- A source can be read to its end, if it has not come there. -/
def Readable (source : BatchSource) : Prop :=
  source.next.isSome → ∃ lists, source.Intact lists

/-- An intact source can be read to its end after it was advanced. -/
theorem Intact.exists_readable {source : BatchSource} {lists : List (String × Postings)}
    (h : source.Intact lists) : ∃ later, source.advance = .ok later ∧ later.Readable := by
  obtain ⟨later, hadvance, hlater⟩ := h.exists_advance
  refine ⟨later, hadvance, fun hnext => ⟨lists.tail, hlater ?_⟩⟩
  rintro rfl
  rw [(h.ahead.advance hadvance).next] at hnext
  cases hnext

end BatchSource
end Concordance
