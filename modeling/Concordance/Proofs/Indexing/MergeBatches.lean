import Concordance.Proofs.Indexing.Commit
import Concordance.Proofs.Indexing.Layout
import Concordance.Proofs.Posting.Normalize
import Concordance.Proofs.Text.ByteOrder

/-!
# Merging batch files

A batch file is the number of its lists, the lists themselves and a checksum of all this
(`Stream.file`). On a disk that refuses nothing, any number of such files are merged without a
failure. The directory then has the units of all files, and in the postings file stands for each
unit what its lists of all files come to, laid out in the order of the units
(`Indexer.merge_exact`). The documents of a unit are counted in 32 bits, and units are texts
(`Indexer.merge_exact_limits`).
-/

namespace Concordance

open Attempt

/-! ## Batch files -/

namespace Stream

/-- What stands in front of the checksum in the file of some lists: their number, and the lists one
after another. -/
def content (stream : Stream) : Bytes :=
  Bytes.ofUInt32 stream.length.toUInt32 ++ stream.flatMap Batch.listBytes

/-- The batch file of some lists. -/
def file (stream : Stream) : Bytes :=
  stream.content ++ Bytes.ofUInt32 (Checksum.ofBytes stream.content)

/-- Lists that a batch file can hold: the bytes of their units ascend, and 32 bits are enough for
the number of lists, the length of each unit and the number of words of each list. -/
structure Storable (stream : Stream) : Prop where
  ascending : stream.Pairwise fun first second => Bytes.ofText first.1 < Bytes.ofText second.1
  count : stream.length < 2 ^ 32
  fits : ∀ entry ∈ stream, (Record.text entry.1).fits = true ∧ entry.2.length < 2 ^ 32

/-- The words of a unit in several streams, one list behind the other. -/
def wordsOf (streams : List Stream) (unit : String) : Postings :=
  (streams.flatten.filter fun entry => entry.1 = unit).flatMap Prod.snd

variable {stream : Stream} {streams : List Stream} {unit : String}

/-- A stream has at most one list of a unit. -/
theorem flatMap_filter (h : Sorted stream) :
    (stream.filter fun entry => entry.1 = unit).flatMap Prod.snd =
      (stream.lookup unit).getD [] := by
  induction stream with
  | nil => rfl
  | cons entry rest ih =>
      obtain ⟨hfirst, hrest⟩ := List.pairwise_cons.1 h
      rw [show entry = (entry.1, entry.2) from rfl, Table.lookup_cons]
      by_cases hunit : unit = entry.1
      · have hnone : (rest.filter fun later => later.1 = unit) = [] := by
          rw [List.filter_eq_nil_iff]
          intro later hlater heq
          have hlt := hfirst later hlater
          rw [of_decide_eq_true heq, hunit] at hlt
          exact String.lt_irrefl _ hlt
        rw [List.filter_cons_of_pos (by simp [hunit]), hnone, if_pos hunit]
        simp
      · rw [List.filter_cons_of_neg (by simpa using Ne.symm hunit), if_neg hunit, ih hrest]

/-- The lists of a unit that are gathered are its words in all streams. -/
theorem gather_eq_wordsOf (h : ∀ stream ∈ streams, Sorted stream) :
    (gather streams unit).getD [] = wordsOf streams unit := by
  have hlists : (gather streams unit).getD [] =
      (streams.filterMap (List.lookup unit)).flatten := by
    rw [gather]
    split
    · rename_i hnil
      rw [hnil]
      rfl
    · rfl
  rw [hlists]
  clear hlists
  induction streams with
  | nil => rfl
  | cons stream rest ih =>
      obtain ⟨hfirst, hrest⟩ := List.forall_mem_cons.1 h
      rw [wordsOf, List.flatten_cons, List.filter_append, List.flatMap_append,
        flatMap_filter hfirst, ← wordsOf, ← ih hrest, List.filterMap_cons]
      cases stream.lookup unit with
      | none => rfl
      | some words => rfl

/-- A stream in the order of bytes is in the order of texts. -/
theorem Storable.sorted (h : stream.Storable) : Sorted stream :=
  h.ascending.imp Bytes.ofText_lt_iff.1

/-- The batch file of lists can be opened and read to its end. -/
theorem Storable.exists_intact (h : stream.Storable) (path : String) :
    ∃ source, BatchSource.ofBytes path stream.file = .ok source ∧ source.Intact stream := by
  rw [file, content, List.append_assoc, BatchSource.ofBytes_file]
  refine ⟨_, rfl, ⟨Nat.mod_eq_of_lt h.count, ⟨_, rfl⟩, h.fits⟩, ?_⟩
  simp only [Reader.advance, Checksum.ofBytes, Checksum.add, List.foldl_append]

end Stream

namespace Indexer

variable {disk : Disk} {names : List String} {streams : List Stream}

/-! ## Opening the files -/

/-- Files that hold these lists, in the same order. -/
abbrev Hold (disk : Disk) (names : List String) (streams : List Stream) : Prop :=
  List.Forall₂ (fun name stream => disk.file? name = some (Stream.file stream)) names streams

/-- Batch files are opened one after another. -/
theorem exists_opened (path : String) (hwilling : disk.Willing) (hhold : Hold disk names streams)
    (hstorable : ∀ stream ∈ streams, Stream.Storable stream) :
    ∃ opened later, Yields (names.mapM fun name => do
        let bytes ← Disk.read name
        BatchSource.ofBytes (path ++ "/" ++ name) bytes : OnDisk (List BatchSource))
        disk opened later ∧ later.Willing ∧
      List.Forall₂ BatchSource.Intact opened streams := by
  -- reading a file changes nothing but the number of attempts
  suffices hgeneral : ∀ state, Disk.Same disk state → state.Willing → ∃ opened later,
      Yields (names.mapM fun name => do
        let bytes ← Disk.read name
        BatchSource.ofBytes (path ++ "/" ++ name) bytes : OnDisk (List BatchSource))
        state opened later ∧ later.Willing ∧
      List.Forall₂ BatchSource.Intact opened streams from
    hgeneral disk ⟨rfl, rfl, rfl⟩ hwilling
  clear hwilling
  induction hhold with
  | nil =>
      intro state _ hstate
      exact ⟨[], state, by rw [List.mapM_nil]; rfl, hstate, List.Forall₂.nil⟩
  | @cons name stream names streams hfile _ ih =>
      intro state hsame hstate
      obtain ⟨hfirst, hrest⟩ := List.forall_mem_cons.1 hstorable
      obtain ⟨between, hread, hsame', hbetween⟩ :=
        hstate.read ((hsame.file? name).trans hfile)
      obtain ⟨source, hsource, hintact⟩ := hfirst.exists_intact (path ++ "/" ++ name)
      obtain ⟨opened, later, hopened, hlater, hintacts⟩ :=
        ih hrest between (hsame.trans hsame') hbetween
      refine ⟨source :: opened, later, ?_, hlater, List.Forall₂.cons hintact hintacts⟩
      rw [List.mapM_cons]
      refine yields_bind (yields_bind hread ?_) (yields_bind hopened rfl)
      rw [hsource]
      rfl

/-- Opened files are read on to their first lists, and can be read to their ends. -/
theorem exists_advanced {opened : List BatchSource}
    (h : List.Forall₂ BatchSource.Intact opened streams) (disk : Disk) :
    ∃ sources, Yields (opened.mapM fun source => source.advance : OnDisk (List BatchSource))
        disk sources disk ∧
      Deliver sources streams ∧ ∀ source ∈ sources, source.Readable := by
  induction h with
  | nil => exact ⟨[], by rw [List.mapM_nil]; rfl, List.Forall₂.nil, by simp⟩
  | cons hintact _ ih =>
      obtain ⟨source, hadvance, hreadable⟩ := hintact.exists_readable
      obtain ⟨sources, hsources, hdeliver, hreadables⟩ := ih
      refine ⟨source :: sources, ?_,
        List.Forall₂.cons (hintact.ahead.advance hadvance) hdeliver,
        List.forall_mem_cons.2 ⟨hreadable, hreadables⟩⟩
      rw [List.mapM_cons, hadvance]
      exact yields_bind rfl (yields_bind hsources rfl)

/-- Batch files on a disk that refuses nothing are opened without a failure. -/
theorem exists_openBatches (path : String) (hwilling : disk.Willing)
    (hhold : Hold disk names streams) (hstorable : ∀ stream ∈ streams, Stream.Storable stream) :
    ∃ sources later, Yields (openBatches path names) disk sources later ∧ later.Willing ∧
      Deliver sources streams ∧ ∀ source ∈ sources, source.Readable := by
  obtain ⟨opened, later, hopened, hlater, hintacts⟩ :=
    exists_opened path hwilling hhold hstorable
  obtain ⟨sources, hsources, hdeliver, hreadable⟩ := exists_advanced hintacts later
  exact ⟨sources, later, yields_bind hopened hsources, hlater, hdeliver, hreadable⟩

/-! ## Merging the files -/

/-- What a directory and a postings file tell of some streams: their units, in the order of their
bytes, and for each unit where its words lie in normal form and, in 32 bits, how many documents they
have. -/
structure Merges (streams : List Stream) (directory : TokenDirectory) (bytes : Bytes) : Prop where
  units : ∀ unit, directory.contains unit = true ↔
    ∃ stream ∈ streams, ∃ words, (unit, words) ∈ stream
  locates : ∀ unit entry, directory.find? unit = some entry →
    entry.Locates bytes (Stream.wordsOf streams unit).normalize
  documents : ∀ unit entry, directory.find? unit = some entry → entry.documents =
    .ofNat ((Stream.wordsOf streams unit).normalize.map Word.document).toFinset.card
  ascending : directory.entries.Pairwise fun first second =>
    Bytes.ofText first.1 < Bytes.ofText second.1
  layout : Layout (directory.entries.map Prod.snd) bytes

/-- The gathered lists of sorted streams merge these streams. -/
theorem merges_addAll (hsorted : ∀ stream ∈ streams, Stream.Sorted stream) :
    Merges streams (MergeOutcome.addAll {} (union streams).entries).directory
      (MergeOutcome.addAll {} (union streams).entries).writer.toBytes := by
  have hstores := MergedPostings.stores_addAll (union streams)
  have hlocates : ∀ unit entry,
      (MergeOutcome.addAll {} (union streams).entries).directory.find? unit = some entry →
      entry.Locates (MergeOutcome.addAll {} (union streams).entries).writer.toBytes
        (Stream.wordsOf streams unit).normalize := by
    intro unit entry hentry
    cases hfound : (union streams).find? unit with
    | none => cases hentry.symm.trans (hstores.missing unit hfound)
    | some words =>
        obtain ⟨entry', hentry', hplace⟩ := hstores.found unit words hfound
        cases hentry.symm.trans hentry'
        rw [← Stream.gather_eq_wordsOf hsorted, ← find?_union, hfound]
        exact hplace
  refine ⟨fun unit => ?_, hlocates, fun unit entry hentry => ?_,
    (Table.sorted _).imp Bytes.ofText_lt_iff.2,
    (MergedPostings.layout_entries (union streams)).2.1⟩
  · rw [Table.contains_iff]
    constructor
    · intro hfound
      obtain ⟨entry, hentry⟩ := hfound
      refine Classical.byContradiction fun hnot => ?_
      have hnone : gather streams unit = none :=
        gather_eq_none fun stream hstream list hlist heq =>
          hnot ⟨stream, hstream, list.2, heq ▸ hlist⟩
      cases hentry.symm.trans (hstores.missing unit ((find?_union streams unit).trans hnone))
    · intro hlist
      obtain ⟨stream, hstream, words, hwords⟩ := hlist
      cases hfound : (union streams).find? unit with
      | some gathered =>
          obtain ⟨entry, hentry, -⟩ := hstores.found unit gathered hfound
          exact ⟨entry, hentry⟩
      | none =>
          rw [find?_union] at hfound
          have hsome := (Table.lookup_eq_some_iff (hsorted stream hstream)).2 hwords
          have hmem := List.mem_filterMap.2 ⟨stream, hstream, hsome⟩
          rw [gather] at hfound
          split at hfound
          · rename_i hnil
            rw [hnil] at hmem
            cases hmem
          · cases hfound
  · rw [(hlocates unit entry hentry).documents,
      (Postings.ascending_normalize _).documentCount_eq_card]

/-- Batch files on a disk that refuses nothing are merged by gathering their lists. -/
theorem exists_mergeBatches {own : String → Prop} (path : String) (hwilling : disk.Willing)
    (hseparate : disk.Separate own) (hown : own IndexFile.postings.name)
    (hhold : Hold disk names streams) (hstorable : ∀ stream ∈ streams, Stream.Storable stream) :
    ∃ summary later,
      Yields (mergeBatches path names) disk
        ((MergeOutcome.addAll {} (union streams).entries).directory, summary) later ∧
      later.file? IndexFile.postings.name =
        some (MergeOutcome.addAll {} (union streams).entries).writer.toBytes ∧
      disk.Touches own IndexFile.postings.name later ∧
      summary = ⟨(MergeOutcome.addAll {} (union streams).entries).directory.size,
        (MergeOutcome.addAll {} (union streams).entries).writer.toBytes.length⟩ := by
  obtain ⟨sources, ready, hopen, hready, hdeliver, hreadable⟩ :=
    exists_openBatches path hwilling hhold hstorable
  have hwell : (MergeOutcome.ofSources sources).failure = none :=
    MergeOutcome.failure_eq_none hreadable
  obtain ⟨file, created, hcreate, hcreated⟩ := hready.create IndexFile.postings.name
  obtain ⟨later, hwrite, -⟩ :=
    hcreated.writeAt file 0 (MergeOutcome.ofSources sources).merged.writer.toBytes
  have hyields : Yields (mergeBatches path names) disk
      ((MergeOutcome.ofSources sources).merged.directory,
        (MergeOutcome.ofSources sources).merged.summary) later := by
    refine yields_bind hopen (yields_bind hcreate (yields_bind hwrite ?_))
    rw [hwell]
    rfl
  obtain ⟨_, _, merged, hopen', hmerge, hdirectory, hsummary, htouches, hbytes⟩ :=
    of_mergeBatches hseparate hown hyields
  cases hopen.symm.trans hopen'
  obtain rfl : merged = MergeOutcome.addAll {} (union streams).entries :=
    (congrArg MergeOutcome.merged hmerge).symm.trans
      (MergeOutcome.ofSources_eq hdeliver (fun stream hstream => (hstorable stream hstream).sorted)
        hwell)
  obtain ⟨hsound, -⟩ := MergedPostings.layout_entries (union streams)
  refine ⟨_, later, hdirectory ▸ hyields, hbytes, htouches, ?_⟩
  rw [hsummary, MergedPostings.summary, hsound]

/-- **Merging batch files loses, adds and misplaces nothing.** On a disk that refuses nothing, a
merge of batch files succeeds and changes no file but the postings file. The directory has exactly
the units of the files. For each of them it tells where the normal form of all its words stands, in
the order of the files, and in 32 bits the number of their documents. The lists lie in the order of
the bytes of their units at multiples of 64, without overlapping and with zeros between them, and
the last one ends the file. The summary has the number of units and of bytes. -/
theorem merge_exact {own : String → Prop} (path : String) (hwilling : disk.Willing)
    (hseparate : disk.Separate own) (hown : own IndexFile.postings.name)
    (hhold : Hold disk names streams) (hstorable : ∀ stream ∈ streams, Stream.Storable stream) :
    ∃ directory summary later bytes,
      Yields (mergeBatches path names) disk (directory, summary) later ∧
        later.file? IndexFile.postings.name = some bytes ∧
        disk.Touches own IndexFile.postings.name later ∧
        Merges streams directory bytes ∧
        summary = ⟨directory.size, bytes.length⟩ := by
  obtain ⟨summary, later, hyields, hbytes, htouches, hsummary⟩ :=
    exists_mergeBatches path hwilling hseparate hown hhold hstorable
  exact ⟨_, summary, later, _, hyields, hbytes, htouches,
    merges_addAll fun stream hstream => (hstorable stream hstream).sorted, hsummary⟩

/-- A disk with two batch files. -/
def filesOf (first second : Stream) : Disk where
  present := true
  names := Table.ofList [("first", 0), ("second", 1)]
  files := #[Stream.file first, Stream.file second]

section TwoFiles

variable (first second : Stream)

/-- The disk refuses nothing. -/
theorem willing_filesOf : (filesOf first second).Willing :=
  ⟨rfl, fun _ => rfl⟩

/-- The postings file is none of the two files. -/
theorem separate_filesOf : (filesOf first second).Separate (· = IndexFile.postings.name) :=
  ⟨fun _ _ hname hfound => by (subst hname; cases hfound), fun _ _ _ hname hother _ _ =>
    hname.trans hother.symm⟩

/-- Both files hold their lists. -/
theorem hold_filesOf : Hold (filesOf first second) ["first", "second"] [first, second] :=
  List.Forall₂.cons rfl (List.Forall₂.cons rfl List.Forall₂.nil)

end TwoFiles

/-- Lists of two units in documents seven and nine. -/
def sevenNine : Stream :=
  [("a", [Word.pack 7 0 1]), ("b", [Word.pack 7 0 2, Word.pack 9 0 1])]

/-- Lists of two units, of which one has words in documents three and seven. -/
def threeSeven : Stream :=
  [("b", [Word.pack 3 1 4, Word.pack 7 0 4]), ("c", [])]

/-- The words of the unit of both files are put together, and one word of the same document and
group is made of two. -/
theorem merge_exact_two_files :
    ∃ directory summary later bytes entry,
      Yields (mergeBatches "index" ["first", "second"]) (filesOf sevenNine threeSeven)
          (directory, summary) later ∧
        later.file? IndexFile.postings.name = some bytes ∧
        Merges [sevenNine, threeSeven] directory bytes ∧
        summary = ⟨directory.size, bytes.length⟩ ∧
        directory.find? "b" = some entry ∧ entry.documents = 3 ∧
        entry.Locates bytes [Word.pack 3 1 4, Word.pack 7 0 6, Word.pack 9 0 1] := by
  have hstorable : ∀ stream ∈ [sevenNine, threeSeven], Stream.Storable stream :=
    List.forall_mem_cons.2 ⟨⟨by decide +kernel, by decide, by decide +kernel⟩,
      List.forall_mem_singleton.2 ⟨by decide +kernel, by decide, by decide +kernel⟩⟩
  obtain ⟨directory, summary, later, bytes, hyields, hbytes, -, hmerges, hsummary⟩ :=
    merge_exact "index" (willing_filesOf _ _) (separate_filesOf _ _) rfl (hold_filesOf _ _)
      hstorable
  obtain ⟨entry, hentry⟩ := Table.contains_iff.1
    ((hmerges.units "b").2 ⟨_, List.mem_cons_self, _, List.mem_cons_of_mem _ List.mem_cons_self⟩)
  have hwords : (Stream.wordsOf [sevenNine, threeSeven] "b").normalize =
      [Word.pack 3 1 4, Word.pack 7 0 6, Word.pack 9 0 1] := by
    refine Postings.Canonical.ext (Postings.canonical_normalize (by decide)) (by decide) fun x => ?_
    have hfirst : (Stream.wordsOf [sevenNine, threeSeven] "b").addresses =
        [7340033, 9437184, 3145746, 7340034] := by decide
    have hsecond : Postings.addresses [Word.pack 3 1 4, Word.pack 7 0 6, Word.pack 9 0 1] =
        [3145746, 7340033, 7340034, 9437184] := by decide
    rw [Postings.mem_addresses_normalize, hfirst, hsecond]
    simp only [List.mem_cons, List.not_mem_nil, or_false]
    omega
  refine ⟨directory, summary, later, bytes, entry, hyields, hbytes, hmerges, hsummary, hentry, ?_,
    hwords ▸ hmerges.locates "b" entry hentry⟩
  rw [hmerges.documents "b" entry hentry, hwords]
  decide

/-! ## More documents than can be counted, and units that are no text -/

/-- A word of each of some documents in a row. -/
def documentsFrom (start count : Nat) : Postings :=
  (List.range' start count).map fun document => Word.ofPosition (.ofNat document) 0

/-- A list of these words. -/
def streamFrom (start count : Nat) : Stream :=
  [("a", documentsFrom start count)]

section Halves

variable {half start count : Nat}

/-- Two halves of a row of documents make up the row. -/
theorem wordsOf_halves (half : Nat) :
    Stream.wordsOf [streamFrom 0 half, streamFrom half half] "a" =
      documentsFrom 0 (half + half) := by
  have hrange := @List.range'_append_1 0 half half
  rw [Nat.zero_add] at hrange
  rw [documentsFrom, ← hrange, List.map_append]
  simp [Stream.wordsOf, streamFrom, documentsFrom]

/-- The documents of the words are as many as the words. -/
theorem card_documentsFrom (h : count ≤ 2 ^ 32) :
    ((documentsFrom 0 count).normalize.map Word.document).toFinset.card = count := by
  have hdocuments : (documentsFrom 0 count).map Word.document =
      (List.range' 0 count).map UInt32.ofNat := by
    rw [documentsFrom, List.map_map]
    refine List.map_congr_left fun document _ => ?_
    rw [Function.comp_apply, ← UInt32.toNat_inj, Word.toNat_document,
      Word.slot_ofPosition (by decide)]
    change (_ * 2 ^ 16 + 0) / 2 ^ 16 = _
    omega
  have hnodup : ((List.range' 0 count).map UInt32.ofNat).Nodup := by
    refine List.Nodup.map_on ?_ List.nodup_range'
    intro first hfirst second hsecond heq
    rw [List.mem_range'_1] at hfirst hsecond
    rw [← UInt32.toNat_inj, UInt32.toNat_ofNat', UInt32.toNat_ofNat'] at heq
    omega
  have hsame : ((documentsFrom 0 count).normalize.map Word.document).toFinset =
      ((documentsFrom 0 count).map Word.document).toFinset := by
    ext document
    rw [List.mem_toFinset, List.mem_toFinset, Postings.mem_map_document_normalize]
  rw [hsame, hdocuments, List.toFinset_card_of_nodup hnodup, List.length_map, List.length_range']

/-- A batch file can hold such a list. -/
theorem storable_streamFrom (h : count < 2 ^ 32) : (streamFrom start count).Storable := by
  have hlength : (documentsFrom start count).length < 2 ^ 32 := by
    rwa [documentsFrom, List.length_map, List.length_range']
  have hfits : (Record.text "a").fits = true := by decide
  have hone : (streamFrom start count).length < 2 ^ 32 :=
    Nat.lt_of_le_of_lt (Nat.le_refl 1) (by decide)
  exact ⟨List.pairwise_singleton _ _, hone, List.forall_mem_singleton.2 ⟨hfits, hlength⟩⟩

/-- Merging two halves of a row of documents counts the row in 32 bits. -/
theorem exists_documents_halves (h : half + half ≤ 2 ^ 32) :
    ∃ directory summary later entry,
      Yields (mergeBatches "index" ["first", "second"])
          (filesOf (streamFrom 0 half) (streamFrom half half)) (directory, summary) later ∧
        directory.find? "a" = some entry ∧ entry.documents = .ofNat (half + half) ∧
        ((Stream.wordsOf [streamFrom 0 half, streamFrom half half] "a").normalize.map
          Word.document).toFinset.card = half + half := by
  have hhalf : half < 2 ^ 32 := by omega
  have hstorable : ∀ stream ∈ [streamFrom 0 half, streamFrom half half], Stream.Storable stream :=
    List.forall_mem_cons.2 ⟨storable_streamFrom hhalf,
      List.forall_mem_singleton.2 (storable_streamFrom hhalf)⟩
  obtain ⟨summary, later, hyields, -⟩ := exists_mergeBatches "index" (willing_filesOf _ _)
    (separate_filesOf _ _) rfl (hold_filesOf _ _) hstorable
  have hmerges := merges_addAll fun stream hstream => (hstorable stream hstream).sorted
  obtain ⟨entry, hentry⟩ := Table.contains_iff.1
    ((hmerges.units "a").2 ⟨_, List.mem_cons_self, _, List.mem_cons_self⟩)
  have hcard : ((Stream.wordsOf [streamFrom 0 half, streamFrom half half] "a").normalize.map
      Word.document).toFinset.card = half + half := by
    rw [wordsOf_halves, card_documentsFrom h]
  refine ⟨_, summary, later, entry, hyields, hentry, ?_, hcard⟩
  rw [hmerges.documents "a" entry hentry, hcard]

end Halves

/-- A batch file with the right checksum, whose only unit is a byte that no text has. -/
def textlessFile : Bytes :=
  let content := Bytes.ofUInt32 1 ++
    ([1, 0xFF] ++ (Bytes.ofUInt32 1 ++ Bytes.ofWords [Word.pack 0 0 1]))
  content ++ Bytes.ofUInt32 (Checksum.ofBytes content)

/-- A disk with this file. -/
def textlessDisk : Disk where
  present := true
  names := Table.ofList [("first", 0)]
  files := #[textlessFile]

/-- **What a merge cannot do.** Of two batch files with a unit that occurs in all documents, in the
lower half of them in one file and in the upper half in the other, the merge counts no document,
since `2 ^ 32` is zero in 32 bits. And a batch file whose unit is no text is not merged at all. -/
theorem merge_exact_limits :
    (∃ directory summary later entry,
      Yields (mergeBatches "index" ["first", "second"])
          (filesOf (streamFrom 0 0x80000000) (streamFrom 0x80000000 0x80000000))
          (directory, summary) later ∧
        directory.find? "a" = some entry ∧ entry.documents = 0 ∧
        ((Stream.wordsOf [streamFrom 0 0x80000000, streamFrom 0x80000000 0x80000000]
          "a").normalize.map Word.document).toFinset.card = 2 ^ 32) ∧
      ∃ later, Fails (mergeBatches "index" ["first"]) textlessDisk .invalidText later :=
  ⟨exists_documents_halves (by decide), _, rfl⟩

end Indexer
end Concordance
