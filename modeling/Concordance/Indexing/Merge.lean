import Concordance.Indexing.BatchSource
import Concordance.Record.Writer
import Concordance.Storage.PostingsFile

/-!
# Merging batches

The batch files of an index are merged unit by unit, in ascending order of the
units. The lists of one unit are put together in the order of the batches and
normalized, and the result is written at the next aligned place of the postings
file. If a batch turns out to be damaged, the lists finished before are kept. A
merge that ends well is summed up by the number of its units and of its bytes.
-/

namespace Concordance

/-- The postings file and the directory of what it holds. -/
structure MergedPostings where
  writer : Writer := {}
  directory : TokenDirectory := Table.empty

namespace MergedPostings

/-- Write the list of a unit. -/
def add (merged : MergedPostings) (unit : String) (words : Postings) : MergedPostings :=
  let words := words.normalize
  let writer := merged.writer.fill PostingsFile.alignment
  { writer := writer.putBytes (Bytes.ofWords words)
    directory :=
      merged.directory.insert unit
        ⟨writer.position, words.byteSize, .ofNat words.documentCount⟩ }

/-- Write the list that was gathered, if there is one. -/
def addGathered (merged : MergedPostings) : Option (String × Postings) → MergedPostings
  | some (unit, words) => merged.add unit words
  | none => merged

end MergedPostings

/-- A merge in two numbers. -/
structure MergeSummary where
  /-- The number of units. -/
  units : Nat
  /-- The number of bytes of the postings file. -/
  bytes : Nat
deriving DecidableEq, Repr

/-- The summary of what has been written. -/
def MergedPostings.summary (merged : MergedPostings) : MergeSummary :=
  ⟨merged.directory.size, merged.writer.position⟩

/-- One of several sources, taken out because it delivers next. -/
structure ChosenSource where
  before : List BatchSource
  unit : String
  words : Postings
  source : BatchSource
  after : List BatchSource

namespace ChosenSource

/-- The choice among other sources when one more stands in front of them. -/
def behind (source : BatchSource) (choice : ChosenSource) : ChosenSource :=
  { choice with before := source :: choice.before }

/-- Compare a source with the choice among those after it. It is preferred unless it delivers a
later unit or none. -/
def prefer (source : BatchSource) (after : List BatchSource) (choice : Option ChosenSource) :
    Option ChosenSource :=
  match source.next, choice with
  | some (unit, words), some choice =>
      if choice.unit < unit then some choice else some ⟨[], unit, words, source, after⟩
  | some (unit, words), none => some ⟨[], unit, words, source, after⟩
  | none, choice => choice

/-- Choose the source with the least next unit, the first one if there are several. -/
def choose? : (sources : List BatchSource) → Option ChosenSource
  | [] => none
  | source :: rest => prefer source rest ((choose? rest).map (behind source))

/-- The sources with another one in the place of the chosen one. -/
def replace (choice : ChosenSource) (source : BatchSource) : List BatchSource :=
  choice.before ++ source :: choice.after

/-- The chosen source is one of the sources and delivers the unit it was chosen for. -/
theorem eq_of_choose? {sources : List BatchSource} {choice : ChosenSource}
    (h : choose? sources = some choice) :
    choice.replace choice.source = sources ∧
      choice.source.next = some (choice.unit, choice.words) := by
  induction sources generalizing choice with
  | nil => simp [choose?] at h
  | cons source rest ih =>
      have hlater {inner : ChosenSource}
          (hfound : (choose? rest).map (behind source) = some inner) :
          inner.replace inner.source = source :: rest ∧
            inner.source.next = some (inner.unit, inner.words) := by
        obtain ⟨choice, hchoice, rfl⟩ := Option.map_eq_some_iff.1 hfound
        obtain ⟨hwhole, hnext⟩ := ih hchoice
        exact ⟨congrArg (source :: ·) hwhole, hnext⟩
      unfold choose? prefer at h
      split at h
      · rename_i unit words inner hnext hfound
        split at h
        · exact Option.some.inj h ▸ hlater hfound
        · exact Option.some.inj h ▸ ⟨rfl, hnext⟩
      · rename_i unit words hnext _
        exact Option.some.inj h ▸ ⟨rfl, hnext⟩
      · exact hlater h

end ChosenSource

/-- What became of a merge. -/
structure MergeOutcome where
  merged : MergedPostings
  /-- Why the merge ended early, if it did. -/
  failure : Option Failure := none

namespace MergeOutcome

/-- The number of units still to be delivered by some sources. -/
def pending : (sources : List BatchSource) → Nat
  | [] => 0
  | source :: rest => source.pending + pending rest

/-- Sources deliver what the first and the second ones of them deliver. -/
theorem pending_append (first second : List BatchSource) :
    pending (first ++ second) = pending first + pending second := by
  induction first with
  | nil => exact (Nat.zero_add _).symm
  | cons source rest ih => rw [List.cons_append, pending, ih, pending, Nat.add_assoc]

/-- Reading on in the chosen source delivers one unit. -/
theorem pending_replace {sources : List BatchSource} {choice : ChosenSource} {later : BatchSource}
    (hchoice : ChosenSource.choose? sources = some choice)
    (hread : choice.source.advance = .ok later) :
    pending (choice.replace later) < pending sources := by
  obtain ⟨hsame, hnext⟩ := ChosenSource.eq_of_choose? hchoice
  have hfewer := BatchSource.pending_of_advance (by simp [hnext]) hread
  rw [← hsame]
  simp only [ChosenSource.replace, pending_append, pending]
  omega

/-- Merge what the sources still deliver, given the list gathered for the current unit. A list is
written when the next unit is a different one. -/
def mergeFrom (gathered : Option (String × Postings)) (merged : MergedPostings)
    (sources : List BatchSource) : MergeOutcome :=
  match _ : ChosenSource.choose? sources with
  | none => { merged := merged.addGathered gathered }
  | some choice =>
      let (words, merged) :=
        match gathered with
        | some (unit, words) =>
            if unit = choice.unit then (words ++ choice.words, merged)
            else (choice.words, merged.add unit words)
        | none => (choice.words, merged)
      match _ : choice.source.advance with
      | .ok later => mergeFrom (some (choice.unit, words)) merged (choice.replace later)
      | .error failure => { merged, failure }
termination_by pending sources
decreasing_by exact pending_replace (by assumption) (by assumption)

/-- Merge what the sources deliver. -/
def ofSources (sources : List BatchSource) : MergeOutcome :=
  mergeFrom none {} sources

end MergeOutcome

end Concordance
