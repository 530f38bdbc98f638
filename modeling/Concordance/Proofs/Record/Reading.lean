import Concordance.Proofs.Bytes
import Concordance.Proofs.Record.Varint
import Concordance.Proofs.Success
import Concordance.Record.Reader
import Concordance.Record.Writer

/-!
# Reading back records

A writer collects the bytes of its records one after another (`Writer.of_putAll`). A reader that
stands in front of the bytes of a record takes this record, and has advanced by its bytes afterwards
(`Reader.take_of_rest`); if the input ends inside the record, it fails (`Reader.take_cut`).
-/

namespace Concordance

/-! ## Writing -/

namespace Writer

/-- The position is the number of bytes written. -/
def Sound (writer : Writer) : Prop :=
  writer.position = writer.toBytes.length

/-- A new writer has written nothing. -/
@[simp] theorem toBytes_empty : toBytes {} = [] := rfl

/-- A new writer stands at its beginning. -/
theorem Sound.empty : Sound {} := rfl

/-- Bytes are put behind all others. -/
@[simp] theorem toBytes_putBytes (writer : Writer) (bytes : Bytes) :
    (writer.putBytes bytes).toBytes = writer.toBytes ++ bytes := by
  simp [putBytes, toBytes]

/-- A writer that stands behind its bytes still does when more are put there. -/
theorem Sound.putBytes {writer : Writer} (h : writer.Sound) (bytes : Bytes) :
    (writer.putBytes bytes).Sound := by
  unfold Sound at h ⊢
  rw [toBytes_putBytes, List.length_append, ← h]
  rfl

/-- Filling up puts zeros behind what was written. -/
theorem toBytes_fill (writer : Writer) (alignment : Nat) :
    ∃ count, (writer.fill alignment).toBytes = writer.toBytes ++ List.replicate count 0 := by
  unfold fill
  simp only
  split
  · exact ⟨0, (List.append_nil _).symm⟩
  · exact ⟨_, toBytes_putBytes writer _⟩

/-- Filling up ends at a multiple of the alignment. -/
theorem position_fill (writer : Writer) {alignment : Nat} (h : 0 < alignment) :
    (writer.fill alignment).position % alignment = 0 := by
  unfold fill
  simp only
  split
  · assumption
  · have hlt := Nat.mod_lt writer.position h
    have hwhole := Nat.div_add_mod writer.position alignment
    have hnext : writer.position + (alignment - writer.position % alignment) =
        alignment * (writer.position / alignment + 1) := by
      rw [Nat.mul_add]
      omega
    rw [putBytes, List.length_replicate, hnext, Nat.mul_mod_right]

/-- A writer that stands behind its bytes still does after filling up with zeros. -/
theorem Sound.fill {writer : Writer} (h : writer.Sound) (alignment : Nat) :
    (writer.fill alignment).Sound := by
  unfold Writer.fill
  simp only
  split
  · exact h
  · exact h.putBytes _

/-- A record that was written fits, and its bytes stand behind the earlier ones. -/
theorem of_put {writer later : Writer} {record : Record} (h : writer.put record = .ok later) :
    record.fits = true ∧ later.toBytes = writer.toBytes ++ record.toBytes := by
  unfold put at h
  split at h
  · rename_i hfits
    cases h
    exact ⟨hfits, toBytes_putBytes writer _⟩
  · cases h

/-- Records that fit are written. -/
theorem exists_putAll {records : List Record} (h : ∀ record ∈ records, record.fits = true)
    (writer : Writer) : ∃ later, writer.putAll records = .ok later :=
  Success.exists_foldlM (fun record hrecord _ => ⟨_, if_pos (h record hrecord)⟩) writer

/-- Records that were written fit, and their bytes stand behind the earlier ones. -/
theorem of_putAll {writer later : Writer} {records : List Record}
    (h : writer.putAll records = .ok later) :
    (∀ record ∈ records, record.fits = true) ∧
      later.toBytes = writer.toBytes ++ records.flatMap Record.toBytes := by
  refine Success.foldlM_induction (fun done (now : Writer) =>
    (∀ record ∈ done, record.fits = true) ∧
      now.toBytes = writer.toBytes ++ done.flatMap Record.toBytes) ?_ ?_ h
  · intro done record now next hnow hput
    obtain ⟨hfits, hbytes⟩ := of_put hput
    constructor
    · intro other hother
      rcases List.mem_append.1 hother with hother | hother
      · exact hnow.1 other hother
      · rw [List.mem_singleton.1 hother]
        exact hfits
    · rw [hbytes, hnow.2, List.flatMap_append, List.append_assoc]
      simp
  · simp

end Writer

/-! ## Signed numbers -/

namespace Record

/-- A number that a signed number of 64 bits can hold. -/
theorem toNat_int64 {value : Nat} (h : value < 2 ^ 63) :
    value.toUInt64.toInt64.toInt.toNat = value := by
  have hvalue : value.toUInt64.toInt64.toInt = value := Int64.toInt_ofNat_of_lt h
  rw [hvalue, Int.toNat_natCast]

/-- A number that a signed number of 32 bits can hold. -/
theorem toNat_int32 {value : Nat} (h : value < 2 ^ 31) :
    value.toUInt32.toInt32.toInt.toNat = value := by
  have hvalue : value.toUInt32.toInt32.toInt = value := Int32.toInt_ofNat_of_lt h
  rw [hvalue, Int.toNat_natCast]

/-- What is left of a number in 32 bits, if it is not negative there, is no greater number. -/
theorem toNat_int32_le (value : Nat) : value.toUInt32.toInt32.toInt.toNat ≤ value := by
  have hvalue : value.toUInt32.toInt32.toInt = (value : Int).bmod (2 ^ 32) := Int32.toInt_ofNat
  rw [hvalue, Int.bmod_def]
  split
  · omega
  · omega

end Record

/-! ## Reading -/

namespace Reader

variable {reader : Reader} {after : Bytes}

/-- The reader goes on to a value and to the bytes after it. -/
def Takes {α : Type} (outcome : Except Failure (α × Reader)) (value : α) (after : Bytes) : Prop :=
  ∃ later, outcome = .ok (value, later) ∧ later.rest = after

/-- As many bytes as are in front are taken from there. -/
theorem takeBytes_of_rest {front : Bytes} {count : Nat} (hcount : front.length = count)
    (h : reader.rest = front ++ after) : Takes (reader.takeBytes count) front after := by
  subst hcount
  refine ⟨reader.advance front after, ?_, rfl⟩
  simp only [takeBytes, h, Bytes.splitAt?_append]

/-- A number of 32 bits in front is taken. -/
theorem takeUInt32_of_rest {value : UInt32} (h : reader.rest = Bytes.ofUInt32 value ++ after) :
    Takes reader.takeUInt32 value after := by
  obtain ⟨later, htake, hrest⟩ := takeBytes_of_rest (Bytes.length_ofUInt32 value) h
  refine ⟨later, ?_, hrest⟩
  rw [takeUInt32, htake]
  show Except.ok ((Bytes.ofUInt32 value).toNat.toUInt32, later) = _
  rw [Bytes.toUInt32_ofUInt32]

/-- A signed number of 32 bits in front is taken. -/
theorem takeInt32_of_rest {value : Int32}
    (h : reader.rest = (Record.int32 value).toBytes ++ after) :
    Takes reader.takeInt32 value after := by
  obtain ⟨later, htake, hrest⟩ := takeUInt32_of_rest h
  refine ⟨later, ?_, hrest⟩
  rw [takeInt32, htake]
  rfl

/-- A signed number of 64 bits in front is taken. -/
theorem takeInt64_of_rest {value : Int64}
    (h : reader.rest = (Record.int64 value).toBytes ++ after) :
    Takes reader.takeInt64 value after := by
  obtain ⟨later, htake, hrest⟩ := takeBytes_of_rest (Bytes.length_ofUInt64 value.toUInt64) h
  refine ⟨later, ?_, hrest⟩
  rw [takeInt64, htake]
  show Except.ok ((Bytes.ofUInt64 value.toUInt64).toNat.toUInt64.toInt64, later) = _
  rw [Bytes.toUInt64_ofUInt64]
  rfl

/-- Words in front are taken, given how many there are. -/
theorem takeWords_of_rest {words : List UInt64}
    (h : reader.rest = (Record.words words).toBytes ++ after) :
    Takes (reader.takeWords words.length) words after := by
  obtain ⟨later, htake, hrest⟩ := takeBytes_of_rest (Bytes.length_ofWords words) h
  refine ⟨later, ?_, hrest⟩
  rw [takeWords, htake]
  show Except.ok ((Bytes.ofWords words).toWords, later) = _
  rw [Bytes.toWords_ofWords]

/-- The length of a text is read back if it fits in front of it. -/
theorem takeLength_of_rest {count : UInt32} (h : reader.rest = Varint.encode count ++ after) :
    Takes reader.takeLength count after := by
  refine ⟨reader.advance (Varint.encode count) after, ?_, rfl⟩
  simp only [takeLength, h, Varint.read_encode]
  rfl

/-- A text is read back if its length fits in front of it. -/
theorem takeText_of_rest {text : String} (hfits : (Record.text text).fits = true)
    (h : reader.rest = (Record.text text).toBytes ++ after) : Takes reader.takeText text after := by
  have hlength : (Bytes.ofText text).length < 2 ^ 32 := of_decide_eq_true hfits
  have hcount : (Bytes.ofText text).length = (Bytes.ofText text).length.toUInt32.toNat :=
    (Nat.mod_eq_of_lt hlength).symm
  have hrest : reader.rest =
      Varint.encode (Bytes.ofText text).length.toUInt32 ++ (Bytes.ofText text ++ after) := by
    rw [h, ← List.append_assoc]
    rfl
  obtain ⟨between, hread, hbetween⟩ := takeLength_of_rest hrest
  obtain ⟨later, htake, hlater⟩ := takeBytes_of_rest hcount hbetween
  refine ⟨later, ?_, hlater⟩
  simp only [takeText, hread, htake, bind, Except.bind, Bytes.toText?_ofText]
  rfl

/-- A value that was taken may be wrapped up. -/
theorem Takes.map {α β : Type} {outcome : Except Failure (α × Reader)} {value : α}
    (h : Takes outcome value after) (wrap : α → β) :
    Takes (outcome >>= fun taken => pure (wrap taken.1, taken.2)) (wrap value) after := by
  obtain ⟨later, rfl, hrest⟩ := h
  exact ⟨later, rfl, hrest⟩

/-- A record is read back if it fits. -/
theorem takes_of_rest {record : Record} (hfits : record.fits = true)
    (h : reader.rest = record.toBytes ++ after) :
    Takes (reader.take record.shape) record after := by
  cases record with
  | int32 value => exact (takeInt32_of_rest h).map Record.int32
  | uint32 value => exact (takeUInt32_of_rest h).map Record.uint32
  | int64 value => exact (takeInt64_of_rest h).map Record.int64
  | words values => exact (takeWords_of_rest h).map Record.words
  | text value => exact (takeText_of_rest hfits h).map Record.text
  | bytes values => exact (takeBytes_of_rest rfl h).map Record.bytes

/-! ## What reading accounts for -/

/-- One reader comes after another: the bytes between them were counted, and the checksum has
taken them in. -/
def Passed (reader later : Reader) : Prop :=
  ∃ taken, reader.rest = taken ++ later.rest ∧ later = reader.advance taken later.rest

variable {later : Reader}

/-- What was passed in two steps was passed. -/
theorem Passed.trans {last : Reader} (hfirst : Passed reader later) (hnext : Passed later last) :
    Passed reader last := by
  obtain ⟨taken, hrest, hlater⟩ := hfirst
  obtain ⟨further, hfurther, hlast⟩ := hnext
  refine ⟨taken ++ further, ?_, ?_⟩
  · rw [hrest, hfurther, List.append_assoc]
  · rw [hlast, hlater]
    simp only [advance, Checksum.add, List.length_append, List.foldl_append, Nat.add_assoc]

/-- The bytes that a reader has passed are those in front of what it still has to read. -/
theorem Passed.eq_advance {front : Bytes} (h : Passed reader later)
    (hrest : reader.rest = front ++ later.rest) : later = reader.advance front later.rest := by
  obtain ⟨taken, htaken, hlater⟩ := h
  obtain rfl : taken = front := List.append_cancel_right (htaken.symm.trans hrest)
  exact hlater

/-- What is done with a value that was taken leaves the reader where it is. -/
theorem of_map {α β : Type} {outcome : Except Failure (α × Reader)} {wrap : α → β} {result : β}
    (h : (outcome >>= fun taken => pure (wrap taken.1, taken.2)) = .ok (result, later)) :
    ∃ value, outcome = .ok (value, later) := by
  obtain ⟨⟨value, last⟩, houtcome, h⟩ := Success.eq_ok_of_bind h
  cases h
  exact ⟨value, houtcome⟩

/-- The bytes that were taken were passed. -/
theorem passed_takeBytes {count : Nat} {taken : Bytes}
    (h : reader.takeBytes count = .ok (taken, later)) : Passed reader later := by
  rw [takeBytes] at h
  split at h
  · rename_i front rest hsplit
    cases h
    exact ⟨taken, Bytes.of_splitAt? hsplit, rfl⟩
  · cases h

/-- The bytes of a length that was taken were passed. -/
theorem passed_takeLength {value : UInt32} (h : reader.takeLength = .ok (value, later)) :
    Passed reader later := by
  obtain ⟨⟨_, taken, rest⟩, hread, h⟩ := Success.eq_ok_of_bind h
  cases h
  exact ⟨taken, Varint.of_read hread, rfl⟩

/-- The bytes of a text that was taken were passed. -/
theorem passed_takeText {value : String} (h : reader.takeText = .ok (value, later)) :
    Passed reader later := by
  obtain ⟨⟨_, between⟩, hlength, h⟩ := Success.eq_ok_of_bind h
  obtain ⟨⟨bytes, last⟩, hbytes, h⟩ := Success.eq_ok_of_bind h
  have hlast : Passed reader last := (passed_takeLength hlength).trans (passed_takeBytes hbytes)
  dsimp only at h
  split at h
  · cases h
    exact hlast
  · cases h

/-- The bytes of a number of 32 bits that was taken were passed. -/
theorem passed_takeUInt32 {value : UInt32} (h : reader.takeUInt32 = .ok (value, later)) :
    Passed reader later := by
  obtain ⟨⟨_, last⟩, hbytes, h⟩ := Success.eq_ok_of_bind h
  cases h
  exact passed_takeBytes hbytes

/-- The bytes of a signed number of 64 bits that was taken were passed. -/
theorem passed_takeInt64 {value : Int64} (h : reader.takeInt64 = .ok (value, later)) :
    Passed reader later := by
  obtain ⟨⟨_, last⟩, hbytes, h⟩ := Success.eq_ok_of_bind h
  cases h
  exact passed_takeBytes hbytes

/-- Whatever record is taken, the reader accounts for all of its bytes. -/
theorem passed_take {shape : Record.Shape} {record : Record}
    (h : reader.take shape = .ok (record, later)) : Passed reader later := by
  cases shape with
  | int32 =>
      obtain ⟨_, htake⟩ := of_map h
      obtain ⟨_, hword⟩ := of_map htake
      exact passed_takeUInt32 hword
  | uint32 =>
      obtain ⟨_, htake⟩ := of_map h
      exact passed_takeUInt32 htake
  | int64 =>
      obtain ⟨_, htake⟩ := of_map h
      exact passed_takeInt64 htake
  | words count =>
      obtain ⟨_, htake⟩ := of_map h
      obtain ⟨_, hbytes⟩ := of_map htake
      exact passed_takeBytes hbytes
  | text =>
      obtain ⟨_, htake⟩ := of_map h
      exact passed_takeText htake
  | bytes count =>
      obtain ⟨_, htake⟩ := of_map h
      exact passed_takeBytes htake

/-- A record is read back, and the reader has advanced by the bytes of this record. -/
theorem take_of_rest {record : Record} (hfits : record.fits = true)
    (h : reader.rest = record.toBytes ++ after) :
    reader.take record.shape = .ok (record, reader.advance record.toBytes after) := by
  obtain ⟨later, htake, rfl⟩ := takes_of_rest hfits h
  rw [htake, ← (passed_take htake).eq_advance h]

/-! ## Input that ends inside a record -/

/-- Too few bytes cannot be taken. -/
theorem takeBytes_short {count : Nat} (h : reader.rest.length < count) :
    reader.takeBytes count = .error .endOfInput := by
  rw [takeBytes, Bytes.splitAt?_short h]

/-- A number of 32 bits is not taken from fewer than four bytes. -/
theorem takeUInt32_short (h : reader.rest.length < 4) :
    reader.takeUInt32 = .error .endOfInput := by
  rw [takeUInt32, takeBytes_short h]
  rfl

/-- A signed number of 32 bits is not taken from fewer than four bytes. -/
theorem takeInt32_short (h : reader.rest.length < 4) :
    reader.takeInt32 = .error .endOfInput := by
  rw [takeInt32, takeUInt32_short h]
  rfl

/-- A signed number of 64 bits is not taken from fewer than eight bytes. -/
theorem takeInt64_short (h : reader.rest.length < 8) :
    reader.takeInt64 = .error .endOfInput := by
  rw [takeInt64, takeBytes_short h]
  rfl

/-- The input of a text can end in its length or in its content. -/
theorem takeText_cut {text : String} {count : Nat} (hfits : (Record.text text).fits = true)
    (hcount : count < (Record.text text).toBytes.length)
    (h : reader.rest = (Record.text text).toBytes.take count) :
    reader.takeText = .error .endOfInput := by
  have hlength : (Bytes.ofText text).length < 2 ^ 32 := of_decide_eq_true hfits
  have htotal : (Record.text text).toBytes =
      Varint.encode (Bytes.ofText text).length.toUInt32 ++ Bytes.ofText text := rfl
  rw [htotal] at h
  rw [htotal, List.length_append] at hcount
  by_cases hprefix : count < (Varint.encode (Bytes.ofText text).length.toUInt32).length
  · rw [List.take_append_of_le_length (Nat.le_of_lt hprefix)] at h
    rw [takeText, takeLength, h, Varint.read_take_encode _ hprefix]
    rfl
  · rw [List.take_append, List.take_of_length_le (Nat.le_of_not_lt hprefix)] at h
    obtain ⟨between, hread, hbetween⟩ := takeLength_of_rest h
    have hcontent : (Bytes.ofText text).length.toUInt32.toNat = (Bytes.ofText text).length :=
      Nat.mod_eq_of_lt hlength
    have hshort : between.rest.length < (Bytes.ofText text).length.toUInt32.toNat := by
      rw [hcontent, hbetween, List.length_take]
      omega
    rw [takeText, hread]
    show (between.takeBytes _ >>= _) = _
    rw [takeBytes_short hshort]
    rfl

/-- A record whose last bytes are missing is noticed. -/
theorem take_cut {record : Record} {count : Nat} (hfits : record.fits = true)
    (hcount : count < record.toBytes.length) (h : reader.rest = record.toBytes.take count) :
    reader.take record.shape = .error .endOfInput := by
  have hrest : reader.rest.length < record.toBytes.length := by
    rw [h, List.length_take]
    omega
  cases record with
  | int32 value =>
      have hshort : reader.rest.length < 4 := by
        rwa [Record.toBytes, Bytes.length_ofUInt32] at hrest
      rw [Record.shape, take, takeInt32_short hshort]
      rfl
  | uint32 value =>
      have hshort : reader.rest.length < 4 := by
        rwa [Record.toBytes, Bytes.length_ofUInt32] at hrest
      rw [Record.shape, take, takeUInt32_short hshort]
      rfl
  | int64 value =>
      have hshort : reader.rest.length < 8 := by
        rwa [Record.toBytes, Bytes.length_ofUInt64] at hrest
      rw [Record.shape, take, takeInt64_short hshort]
      rfl
  | words values =>
      have hshort : reader.rest.length < 8 * values.length := by
        rwa [Record.toBytes, Bytes.length_ofWords] at hrest
      rw [Record.shape, take, takeWords, takeBytes_short hshort]
      rfl
  | text value =>
      rw [Record.shape, take, takeText_cut hfits hcount h]
      rfl
  | bytes values =>
      have hshort : reader.rest.length < values.length := hrest
      rw [Record.shape, take, takeBytes_short hshort]
      rfl

end Reader
end Concordance
