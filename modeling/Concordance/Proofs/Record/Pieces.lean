import Concordance.Proofs.Record.Reading

/-!
# Reading pieces until the input ends

What is read from some bytes, and not from fewer of them, is told by `Reader.Reads`. Values are read
one after another until the input ends (`Reader.takeUntilEnd`), which are all values if the input
has the bytes of all of them (`Reader.takeUntilEnd_of_rest`).
-/

namespace Concordance
namespace Reader

variable {α β γ σ : Type}

/-! ## Single pieces -/

/-- A value is read from these bytes, whatever follows them, and from fewer of them nothing is,
because the input ends. -/
structure Reads (take : Reader → Except Failure (α × Reader)) (bytes : Bytes) (value : α) :
    Prop where
  whole : ∀ (reader : Reader) (after : Bytes), reader.rest = bytes ++ after →
    Takes (take reader) value after
  cut : ∀ (reader : Reader) (count : Nat), count < bytes.length →
    reader.rest = bytes.take count → take reader = .error .endOfInput

/-- Two values are read one after the other. -/
theorem Reads.bind {first : Reader → Except Failure (α × Reader)}
    {next : α × Reader → Except Failure (β × Reader)} {front back : Bytes} {value : α} {result : β}
    (hfirst : Reads first front value)
    (hnext : Reads (fun reader => next (value, reader)) back result) :
    Reads (fun reader => first reader >>= next) (front ++ back) result := by
  constructor
  · intro reader after hrest
    rw [List.append_assoc] at hrest
    obtain ⟨between, htake, hbetween⟩ := hfirst.whole reader _ hrest
    rw [htake]
    exact hnext.whole between after hbetween
  · intro reader count hcount hrest
    rw [List.length_append] at hcount
    -- the input ends in the bytes of the first value or in those of the second one
    by_cases hshort : count < front.length
    · rw [List.take_append_of_le_length (Nat.le_of_lt hshort)] at hrest
      rw [hfirst.cut reader count hshort hrest]
      rfl
    · rw [List.take_append, List.take_of_length_le (Nat.le_of_not_lt hshort)] at hrest
      obtain ⟨between, htake, hbetween⟩ := hfirst.whole reader _ hrest
      rw [htake]
      exact hnext.cut between (count - front.length) (by omega) hbetween

/-- What is made of a value is read from the bytes of the value. -/
theorem Reads.map {take : Reader → Except Failure (α × Reader)} {bytes : Bytes} {value : α}
    (h : Reads take bytes value) (wrap : α → β) :
    Reads (fun reader => take reader >>= fun taken => pure (wrap taken.1, taken.2)) bytes
      (wrap value) := by
  constructor
  · intro reader after hrest
    exact (h.whole reader after hrest).map wrap
  · intro reader count hcount hrest
    rw [h.cut reader count hcount hrest]
    rfl

/-- A text whose length fits is read from its bytes. -/
theorem reads_takeText {text : String} (hfits : (Record.text text).fits = true) :
    Reads takeText (Record.text text).toBytes text :=
  ⟨fun _ _ hrest => takeText_of_rest hfits hrest,
    fun _ _ hcount hrest => takeText_cut hfits hcount hrest⟩

/-- A signed number of 32 bits is read from its bytes. -/
theorem reads_takeInt32 (value : Int32) : Reads takeInt32 (Record.int32 value).toBytes value := by
  refine ⟨fun _ _ hrest => takeInt32_of_rest hrest, fun reader count hcount hrest => ?_⟩
  rw [Record.toBytes, Bytes.length_ofUInt32] at hcount
  refine takeInt32_short ?_
  rw [hrest, List.length_take]
  omega

/-- A signed number of 64 bits is read from its bytes. -/
theorem reads_takeInt64 (value : Int64) : Reads takeInt64 (Record.int64 value).toBytes value := by
  refine ⟨fun _ _ hrest => takeInt64_of_rest hrest, fun reader count hcount hrest => ?_⟩
  rw [Record.toBytes, Bytes.length_ofUInt64] at hcount
  refine takeInt64_short ?_
  rw [hrest, List.length_take]
  omega

/-! ## Many pieces -/

/-- Take at most `count` values and add each of them, until the input ends. -/
def takeUntilEnd (take : Reader → Except Failure (α × Reader)) (add : σ → α → σ) (state : σ)
    (reader : Reader) : (count : Nat) → Except Failure σ
  | 0 => .ok state
  | count + 1 =>
      match take reader with
      | .ok (value, reader) => takeUntilEnd take add (add state value) reader count
      | .error failure => if failure.isTruncation then .ok state else .error failure

/-- A value that has all its bytes is taken and added. -/
theorem takeUntilEnd_succ {take : Reader → Except Failure (α × Reader)} {bytes after : Bytes}
    {value : α} {reader : Reader} (hreads : Reads take bytes value)
    (h : reader.rest = bytes ++ after) (add : σ → α → σ) (state : σ) (count : Nat) :
    ∃ later, later.rest = after ∧ takeUntilEnd take add state reader (count + 1) =
      takeUntilEnd take add (add state value) later count := by
  obtain ⟨later, htake, hlater⟩ := hreads.whole reader after h
  refine ⟨later, hlater, ?_⟩
  rw [takeUntilEnd, htake]

/-- All values are taken and added if all their bytes are there. -/
theorem takeUntilEnd_of_rest {take : Reader → Except Failure (α × Reader)} (add : σ → α → σ)
    {pieces : List γ} {bytesOf : γ → Bytes} {valueOf : γ → α} {reader : Reader} {after : Bytes}
    (hreads : ∀ piece ∈ pieces, Reads take (bytesOf piece) (valueOf piece))
    (h : reader.rest = pieces.flatMap bytesOf ++ after) (state : σ) :
    takeUntilEnd take add state reader pieces.length =
      .ok (pieces.foldl (fun state piece => add state (valueOf piece)) state) := by
  induction pieces generalizing reader state with
  | nil => rfl
  | cons piece pieces ih =>
      obtain ⟨hpiece, hpieces⟩ := List.forall_mem_cons.1 hreads
      rw [List.flatMap_cons, List.append_assoc] at h
      obtain ⟨later, hlater, hstep⟩ := takeUntilEnd_succ hpiece h add state pieces.length
      rw [List.length_cons, hstep]
      exact ih hpieces hlater _

end Reader
end Concordance
