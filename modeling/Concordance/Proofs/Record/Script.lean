import Concordance.Proofs.Record.Reading

/-!
# Scripts of a writer

A script is a sequence of operations of a writer: records, and zeros up to a multiple of an
alignment. What a script writes is read back record by record with the same position and checksum
after each of them, the checksum behind it is confirmed, and a file that ends inside a record fails
exactly there (`Writer.script_round_trip`).
-/

namespace Concordance

/-! ## How far a file has come -/

/-- The number and the checksum of the bytes that were written or read. -/
structure Mark where
  position : Nat := 0
  checksum : Checksum := {}
deriving DecidableEq, Repr

namespace Mark

/-- The mark after further bytes. -/
def past (mark : Mark) (bytes : Bytes) : Mark :=
  ⟨mark.position + bytes.length, mark.checksum.add bytes⟩

/-- Each record with the mark after it. -/
def trace (mark : Mark) : List Record → List (Record × Mark)
  | [] => []
  | record :: rest => (record, mark.past record.toBytes) :: trace (mark.past record.toBytes) rest

/-- A mark remains where it is if no bytes follow. -/
theorem past_nil (mark : Mark) : mark.past [] = mark := rfl

/-- Bytes can be passed in two steps. -/
theorem past_past (mark : Mark) (bytes others : Bytes) :
    (mark.past bytes).past others = mark.past (bytes ++ others) := by
  simp only [past, Checksum.add, List.length_append, List.foldl_append, Nat.add_assoc]

/-- Every record has one mark in the trace. -/
@[simp] theorem length_trace (mark : Mark) (records : List Record) :
    (mark.trace records).length = records.length := by
  induction records generalizing mark with
  | nil => rfl
  | cons record rest ih => rw [trace, List.length_cons, ih, List.length_cons]

/-- The records of a trace are those it was made of. -/
@[simp] theorem map_fst_trace (mark : Mark) (records : List Record) :
    (mark.trace records).map Prod.fst = records := by
  induction records generalizing mark with
  | nil => rfl
  | cons record rest ih => rw [trace, List.map_cons, ih]

/-- The trace of further records begins at the mark behind the others. -/
theorem trace_append (mark : Mark) (records others : List Record) :
    mark.trace (records ++ others) =
      mark.trace records ++ (mark.past (records.flatMap Record.toBytes)).trace others := by
  induction records generalizing mark with
  | nil => rw [List.flatMap_nil, past_nil, trace, List.nil_append, List.nil_append]
  | cons record rest ih =>
      rw [List.cons_append, trace, ih, past_past, trace, List.cons_append, List.flatMap_cons]

/-- A place in a trace: the records in front of it have a trace of their own, and the mark there
is the one after their bytes and its record. -/
theorem trace_split {mark here : Mark} {records : List Record} {front back : List (Record × Mark)}
    {record : Record} (h : mark.trace records = front ++ (record, here) :: back) :
    ∃ before later, records = before ++ record :: later ∧ front = mark.trace before ∧
      here = mark.past (before.flatMap Record.toBytes ++ record.toBytes) := by
  have hrecords : records = front.map Prod.fst ++ record :: back.map Prod.fst := by
    have hmap := congrArg (List.map Prod.fst) h
    rwa [map_fst_trace, List.map_append, List.map_cons] at hmap
  rw [hrecords, trace_append, trace] at h
  obtain ⟨hfront, hrest⟩ := List.append_inj h (by rw [length_trace, List.length_map])
  have hhere := congrArg Prod.snd (List.cons.inj hrest).1
  refine ⟨front.map Prod.fst, back.map Prod.fst, hrecords, hfront.symm, ?_⟩
  rw [← past_past]
  exact hhere.symm

end Mark

/-! ## Writing -/

namespace Writer

/-- How far a writer has come. -/
def mark (writer : Writer) : Mark :=
  ⟨writer.position, writer.checksum⟩

/-- An operation of a writer. -/
inductive Step where
  /-- Write a record. -/
  | put (record : Record)
  /-- Fill up with zeros to the next multiple of an alignment. -/
  | pad (alignment : Nat)
deriving DecidableEq, Repr

/-- A text is no longer than its length can state, and an alignment is not zero. -/
def Step.Admissible : Step → Prop
  | .put record => record.fits = true
  | .pad alignment => 1 ≤ alignment

/-- Perform an operation. -/
def perform (writer : Writer) : Step → Except Failure Writer
  | .put record => writer.put record
  | .pad alignment => writer.padTo alignment

/-- The record that an operation leaves in the file. Zeros are plain bytes, and there are none of
them where the position is a multiple of the alignment. -/
def leaves (writer : Writer) : Step → Record
  | .put record => record
  | .pad alignment =>
      .bytes (List.replicate ((alignment - writer.position % alignment) % alignment) 0)

/-- Perform a script: the records it leaves with the mark after each of them, and the writer at
its end. -/
def performAll (writer : Writer) :
    List Step → Except Failure (List (Record × Mark) × Writer)
  | [] => .ok ([], writer)
  | step :: script => do
      let later ← writer.perform step
      let (written, final) ← performAll later script
      pure ((writer.leaves step, later.mark) :: written, final)

/-- One writer comes after another: these bytes stand between them and are accounted for. -/
structure Adds (writer later : Writer) (bytes : Bytes) : Prop where
  toBytes : later.toBytes = writer.toBytes ++ bytes
  mark : later.mark = writer.mark.past bytes

/-- What is written in two steps stands one behind the other. -/
theorem Adds.trans {writer between later : Writer} {front back : Bytes}
    (hfirst : Adds writer between front) (hnext : Adds between later back) :
    Adds writer later (front ++ back) := by
  constructor
  · rw [hnext.toBytes, hfirst.toBytes, List.append_assoc]
  · rw [hnext.mark, hfirst.mark, Mark.past_past]

/-- Without a step nothing is added. -/
theorem adds_nothing (writer : Writer) : Adds writer writer [] :=
  ⟨(List.append_nil _).symm, rfl⟩

/-- The bytes that are put are added. -/
theorem adds_putBytes (writer : Writer) (bytes : Bytes) :
    Adds writer (writer.putBytes bytes) bytes :=
  ⟨toBytes_putBytes writer bytes, rfl⟩

/-- The bytes of a record that is put are added. -/
theorem adds_of_put {writer later : Writer} {record : Record} (h : writer.put record = .ok later) :
    Adds writer later record.toBytes := by
  unfold put at h
  split at h
  · cases h
    exact adds_putBytes writer _
  · cases h

/-- The bytes of records that are put one after another are added. -/
theorem adds_of_putAll {writer later : Writer} {records : List Record}
    (h : writer.putAll records = .ok later) :
    Adds writer later (records.flatMap Record.toBytes) := by
  refine Success.foldlM_induction (fun done now => Adds writer now (done.flatMap Record.toBytes))
    ?_ (adds_nothing writer) h
  intro done record now next hnow hput
  rw [List.flatMap_append, List.flatMap_singleton]
  exact hnow.trans (adds_of_put hput)

/-- Behind all that was written stands its checksum. -/
theorem Adds.sealed_eq {writer : Writer} {bytes : Bytes} (h : Adds {} writer bytes) :
    writer.sealed = bytes ++ Bytes.ofUInt32 (Checksum.ofBytes bytes) := by
  have hchecksum : writer.checksum = Checksum.add {} bytes := congrArg Mark.checksum h.mark
  rw [sealed, h.toBytes, hchecksum]
  rfl

/-- Filling up adds the record of its zeros. -/
theorem adds_fill (writer : Writer) {alignment : Nat} (h : 1 ≤ alignment) :
    Adds writer (writer.fill alignment) (writer.leaves (.pad alignment)).toBytes := by
  simp only [leaves, Record.toBytes, fill]
  split
  · rename_i hexcess
    rw [hexcess, Nat.sub_zero, Nat.mod_self]
    exact ⟨(List.append_nil _).symm, rfl⟩
  · have hlt : writer.position % alignment < alignment := Nat.mod_lt _ h
    rw [Nat.mod_eq_of_lt (show alignment - writer.position % alignment < alignment by omega)]
    exact adds_putBytes writer _

/-- An admissible operation succeeds, and what it leaves fits. -/
theorem perform_admissible (writer : Writer) {step : Step} (h : step.Admissible) :
    (writer.leaves step).fits = true ∧
      ∃ later, writer.perform step = .ok later ∧
        Adds writer later (writer.leaves step).toBytes := by
  cases step with
  | put record =>
      refine ⟨h, writer.putBytes record.toBytes, ?_, adds_putBytes writer _⟩
      have hfits : record.fits = true := h
      rw [perform, put, if_pos hfits]
  | pad alignment =>
      have hnot : ¬ alignment = 0 := Nat.ne_of_gt h
      refine ⟨rfl, writer.fill alignment, ?_, adds_fill writer h⟩
      rw [perform, padTo, if_neg hnot]

/-- An admissible script succeeds. It leaves records that fit, one behind the other. -/
theorem performAll_admissible (writer : Writer) {script : List Step}
    (h : ∀ step ∈ script, step.Admissible) :
    ∃ records final, writer.performAll script = .ok (writer.mark.trace records, final) ∧
      (∀ record ∈ records, record.fits = true) ∧
      Adds writer final (records.flatMap Record.toBytes) := by
  induction script generalizing writer with
  | nil =>
      refine ⟨[], writer, rfl, ?_, adds_nothing writer⟩
      exact fun record hmem => absurd hmem List.not_mem_nil
  | cons step script ih =>
      obtain ⟨hstep, hscript⟩ := List.forall_mem_cons.1 h
      obtain ⟨hfits, later, hperform, hadds⟩ := perform_admissible writer hstep
      obtain ⟨records, final, hrun, hall, hrest⟩ := ih later hscript
      refine ⟨writer.leaves step :: records, final, ?_, List.forall_mem_cons.2 ⟨hfits, hall⟩, ?_⟩
      · rw [performAll, hperform]
        show (later.performAll script >>= _) = _
        rw [hrun, hadds.mark]
        rfl
      · rw [List.flatMap_cons]
        exact hadds.trans hrest

end Writer

/-! ## Reading -/

namespace Reader

/-- How far a reader has come. -/
def mark (reader : Reader) : Mark :=
  ⟨reader.position, reader.checksum⟩

/-- Take records of these shapes until one of them cannot be taken: the records with the mark after
each of them, and the reader at the end or the failure. -/
def takeAll (reader : Reader) : List Record.Shape → List (Record × Mark) × Except Failure Reader
  | [] => ([], .ok reader)
  | shape :: shapes =>
      match reader.take shape with
      | .ok (record, later) =>
          let (taken, outcome) := takeAll later shapes
          ((record, later.mark) :: taken, outcome)
      | .error failure => ([], .error failure)

/-- Of several records the first one is taken first, with the mark behind it. -/
theorem takeAll_cons {reader later : Reader} {shape : Record.Shape} {record : Record}
    (h : reader.take shape = .ok (record, later)) (shapes : List Record.Shape) :
    reader.takeAll (shape :: shapes) =
      ((record, later.mark) :: (later.takeAll shapes).1, (later.takeAll shapes).2) := by
  rw [takeAll, h]

/-- Records that stand one behind the other are read back, and then whatever follows them. -/
theorem takeAll_append {reader : Reader} {records : List Record} {after : Bytes}
    (hfits : ∀ record ∈ records, record.fits = true)
    (h : reader.rest = records.flatMap Record.toBytes ++ after) (shapes : List Record.Shape) :
    ∃ later : Reader, later.rest = after ∧
      later.mark = reader.mark.past (records.flatMap Record.toBytes) ∧
      reader.takeAll (records.map Record.shape ++ shapes) =
        (reader.mark.trace records ++ (later.takeAll shapes).1, (later.takeAll shapes).2) := by
  induction records generalizing reader with
  | nil => exact ⟨reader, h, rfl, rfl⟩
  | cons record records ih =>
      obtain ⟨hrecord, hrest⟩ := List.forall_mem_cons.1 hfits
      rw [List.flatMap_cons, List.append_assoc] at h
      have htake := take_of_rest hrecord h
      obtain ⟨later, hafter, hmark, hall⟩ :=
        @ih (reader.advance record.toBytes (records.flatMap Record.toBytes ++ after)) hrest rfl
      refine ⟨later, hafter, ?_, ?_⟩
      · rw [hmark, List.flatMap_cons, ← Mark.past_past]
        rfl
      · rw [List.map_cons, List.cons_append, takeAll_cons htake, hall]
        rfl

/-- All records are read back. -/
theorem takeAll_of_rest {reader : Reader} {records : List Record} {after : Bytes}
    (hfits : ∀ record ∈ records, record.fits = true)
    (h : reader.rest = records.flatMap Record.toBytes ++ after) :
    ∃ later : Reader, later.rest = after ∧
      later.mark = reader.mark.past (records.flatMap Record.toBytes) ∧
      reader.takeAll (records.map Record.shape) = (reader.mark.trace records, .ok later) := by
  obtain ⟨later, hafter, hmark, hall⟩ := takeAll_append hfits h []
  refine ⟨later, hafter, hmark, ?_⟩
  rw [List.append_nil] at hall
  rw [hall, takeAll, List.append_nil]

/-- The records in front of one whose last bytes are missing are read back, and this one fails. -/
theorem takeAll_cut {reader : Reader} {before later : List Record} {record : Record} {count : Nat}
    (hfits : ∀ other ∈ before ++ record :: later, other.fits = true)
    (hcount : count < record.toBytes.length)
    (h : reader.rest = before.flatMap Record.toBytes ++ record.toBytes.take count) :
    reader.takeAll ((before ++ record :: later).map Record.shape) =
      (reader.mark.trace before, .error .endOfInput) := by
  obtain ⟨hbefore, hlater⟩ := List.forall_mem_append.1 hfits
  obtain ⟨between, hrest, -, hall⟩ :=
    takeAll_append hbefore h (record.shape :: later.map Record.shape)
  have htake : between.take record.shape = .error .endOfInput :=
    take_cut (List.forall_mem_cons.1 hlater).1 hcount hrest
  rw [List.map_append, List.map_cons, hall, takeAll, htake, List.append_nil]

/-- The checksum behind what was read is confirmed. -/
theorem verify_of_rest {reader : Reader} {after : Bytes}
    (h : reader.rest = Bytes.ofUInt32 reader.checksum.value ++ after) :
    reader.verify = .ok (true, { reader with rest := after }) := by
  have hsplit : reader.rest.splitAt? 4 =
      some (Bytes.ofUInt32 reader.checksum.value, after) := by
    rw [h]
    exact Bytes.splitAt?_append _ _
  rw [verify, hsplit]
  simp only [Bytes.toUInt32_ofUInt32, decide_true]

/-- A checksum cannot be verified with fewer than four bytes left. -/
theorem verify_short {reader : Reader} (h : reader.rest.length < 4) :
    reader.verify = .error .endOfInput := by
  rw [verify, Bytes.splitAt?_short h]

end Reader

/-! ## Round trips -/

namespace Writer

/-- **Reading undoes writing.** An admissible script succeeds. Taking records of the shapes it left
from its bytes, whatever follows them, gives these records with the mark of the writer after each of
them, and the checksum of a sealed file is confirmed. If the file is cut inside the bytes of one of
the records, the records in front of it are taken as before and this one fails because the input
ended; if it is cut inside the checksum, this is what fails to be confirmed. -/
theorem script_round_trip (script : List Step) (h : ∀ step ∈ script, step.Admissible) :
    ∃ written final, performAll {} script = .ok (written, final) ∧
      (∀ trailer, ∃ last : Reader,
        Reader.takeAll { rest := final.toBytes ++ trailer } (written.map (·.1.shape)) =
          (written, .ok last) ∧
        last.rest = trailer ∧ last.mark = final.mark) ∧
      (∃ last, Reader.takeAll { rest := final.sealed } (written.map (·.1.shape)) =
          (written, .ok last) ∧
        last.verify = .ok (true, { last with rest := [] })) ∧
      (∀ front record mark back, written = front ++ (record, mark) :: back →
        ∀ trailer cut, mark.position ≤ cut + record.toBytes.length → cut < mark.position →
        ∃ failure, Reader.takeAll { rest := (final.toBytes ++ trailer).take cut }
            (written.map (·.1.shape)) = (front, .error failure) ∧
          failure.isTruncation = true) ∧
      (∀ cut, final.toBytes.length ≤ cut → cut < final.sealed.length →
        ∃ last failure, Reader.takeAll { rest := final.sealed.take cut }
            (written.map (·.1.shape)) = (written, .ok last) ∧
          last.verify = .error failure ∧ failure.isTruncation = true) := by
  obtain ⟨records, final, hrun, hfits, hadds⟩ := performAll_admissible {} h
  have hbytes : final.toBytes = records.flatMap Record.toBytes := hadds.toBytes
  have hshapes : (Mark.trace {} records).map (·.1.shape) = records.map Record.shape := by
    rw [← Mark.map_fst_trace {} records, List.map_map, Mark.map_fst_trace]
    rfl
  have hwhole : ∀ trailer, ∃ last : Reader,
      Reader.takeAll { rest := final.toBytes ++ trailer } (records.map Record.shape) =
        (Mark.trace {} records, .ok last) ∧
      last.rest = trailer ∧ last.mark = final.mark := by
    intro trailer
    obtain ⟨last, hrest, hmark, hall⟩ :=
      @Reader.takeAll_of_rest { rest := final.toBytes ++ trailer } records trailer hfits
        (congrArg (· ++ trailer) hbytes)
    refine ⟨last, hall, hrest, ?_⟩
    rw [hmark, hadds.mark]
    rfl
  refine ⟨Mark.trace {} records, final, hrun, ?_⟩
  rw [hshapes]
  refine ⟨hwhole, ?_, ?_, ?_⟩
  · obtain ⟨last, hall, hrest, hmark⟩ := hwhole (Bytes.ofUInt32 final.checksum.value)
    refine ⟨last, hall, Reader.verify_of_rest ?_⟩
    have hchecksum : last.checksum = final.checksum := congrArg Mark.checksum hmark
    rw [hrest, hchecksum, List.append_nil]
  · intro front record mark back hsplit trailer cut hbegin hend
    obtain ⟨before, later, rfl, rfl, rfl⟩ := Mark.trace_split hsplit
    have hposition : (Mark.past {} (before.flatMap Record.toBytes ++ record.toBytes)).position =
        (before.flatMap Record.toBytes).length + record.toBytes.length := by
      rw [Mark.past, List.length_append, Nat.zero_add]
    rw [hposition] at hbegin hend
    have hcut : (final.toBytes ++ trailer).take cut = before.flatMap Record.toBytes ++
        record.toBytes.take (cut - (before.flatMap Record.toBytes).length) := by
      rw [hbytes, List.flatMap_append, List.flatMap_cons, List.append_assoc, List.append_assoc,
        List.take_append, List.take_of_length_le (by omega),
        List.take_append_of_le_length (by omega)]
    refine ⟨.endOfInput, ?_, rfl⟩
    exact Reader.takeAll_cut hfits (by omega) hcut
  · intro cut hbegin hend
    have hcut : final.sealed.take cut =
        final.toBytes ++
          (Bytes.ofUInt32 final.checksum.value).take (cut - final.toBytes.length) := by
      rw [sealed, List.take_append, List.take_of_length_le hbegin]
    obtain ⟨last, hall, hrest, -⟩ := hwhole
      ((Bytes.ofUInt32 final.checksum.value).take (cut - final.toBytes.length))
    refine ⟨last, .endOfInput, ?_, Reader.verify_short ?_, rfl⟩
    · rw [hcut]
      exact hall
    · rw [sealed, List.length_append, Bytes.length_ofUInt32] at hend
      rw [hrest, List.length_take]
      omega

/-- A text, zeros and a number. A file cut between the bytes of the number still has the text and
the zeros. -/
theorem script_round_trip_cut :
    let script : List Step := [.put (.text "é"), .pad 4, .put (.int32 (-7))]
    (∀ step ∈ script, step.Admissible) ∧
      ∃ written final, performAll {} script = .ok (written, final) ∧
        final.toBytes = [2, 195, 169, 0, 249, 255, 255, 255] ∧
        (∃ last, Reader.takeAll { rest := final.toBytes } [.text, .bytes 1, .int32] =
          (written, .ok last)) ∧
        ∃ failure, Reader.takeAll { rest := final.toBytes.take 6 } [.text, .bytes 1, .int32] =
            (written.take 2, .error failure) ∧
          failure.isTruncation = true := by
  intro script
  have hadmissible : ∀ step ∈ script, step.Admissible :=
    List.forall_mem_cons.2 ⟨(by decide +kernel : (Record.text "é").fits = true),
      List.forall_mem_cons.2 ⟨(by decide : 1 ≤ 4),
        List.forall_mem_cons.2 ⟨rfl, fun step hmem => absurd hmem List.not_mem_nil⟩⟩⟩
  refine ⟨hadmissible, ?_⟩
  obtain ⟨written, final, hrun, hwhole, -, hcut, -⟩ := script_round_trip script hadmissible
  have hvalues : (performAll {} script).map (fun result => (result.1, result.2.toBytes)) =
      .ok ([(.text "é", ⟨3, ⟨1290235202⟩⟩), (.bytes [0], ⟨4, ⟨2560542673⟩⟩),
        (.int32 (-7), ⟨8, ⟨3771637220⟩⟩)], [2, 195, 169, 0, 249, 255, 255, 255]) := by
    decide +kernel
  rw [hrun, Except.map, Except.ok.injEq, Prod.mk.injEq] at hvalues
  obtain ⟨rfl, hbytes⟩ := hvalues
  obtain ⟨last, hlast, -⟩ := hwhole []
  obtain ⟨failure, hfailure, htruncation⟩ := hcut [(.text "é", ⟨3, ⟨1290235202⟩⟩),
    (.bytes [0], ⟨4, ⟨2560542673⟩⟩)] (.int32 (-7)) ⟨8, ⟨3771637220⟩⟩ [] rfl [] 6
    (by decide) (by decide)
  rw [List.append_nil] at hlast hfailure
  exact ⟨_, final, hrun, hbytes, ⟨last, hlast⟩, failure, hfailure, htruncation⟩

end Writer
end Concordance
