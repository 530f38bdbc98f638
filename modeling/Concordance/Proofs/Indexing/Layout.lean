import Concordance.Proofs.Indexing.Merge

/-!
# How a postings file is laid out

The list of each unit has a run of bytes of its own in the postings file. The runs begin at
multiples of 64, lie one behind the other without overlapping, have zeros between them, and the last
one ends the file (`Layout`). Adding a list behind the others keeps a file in this form
(`Layout.append`), so lists that are added in ascending order of their units have their runs in this
order (`MergedPostings.layout_addAll`).
-/

namespace Concordance

/-- The place behind the last byte of a list. -/
def TokenEntry.stop (entry : TokenEntry) : Nat :=
  entry.start + entry.length

/-- Runs of bytes that lie one behind the other in a file, with zeros in front of and between
them. -/
structure Layout (runs : List TokenEntry) (bytes : Bytes) : Prop where
  aligned : ∀ run ∈ runs, run.start % 64 = 0
  inside : ∀ run ∈ runs, run.stop ≤ bytes.length
  ordered : runs.Pairwise fun first second => first.stop ≤ second.start
  ends : bytes.length = (runs.getLast?.map TokenEntry.stop).getD 0
  zeros : ∀ place byte, bytes[place]? = some byte →
    (∀ run ∈ runs, place < run.start ∨ run.stop ≤ place) → byte = 0

namespace Layout

variable {runs : List TokenEntry} {bytes : Bytes}

/-- A file without runs is empty. -/
theorem nil : Layout [] [] :=
  ⟨by simp, by simp, List.Pairwise.nil, rfl, by simp⟩

/-- A run is put behind the others, after zeros up to a multiple of 64. -/
theorem append (h : Layout runs bytes) {run : TokenEntry} {count : Nat} {content : Bytes}
    (hstart : run.start = bytes.length + count) (haligned : run.start % 64 = 0)
    (hlength : run.length = content.length) :
    Layout (runs ++ [run]) (bytes ++ List.replicate count 0 ++ content) := by
  have hstop : run.stop = (bytes ++ List.replicate count 0 ++ content).length := by
    simp [TokenEntry.stop, hstart, hlength, Nat.add_assoc]
  have hbehind : ∀ other ∈ runs, other.stop ≤ run.start := by
    intro other hother
    have hinside := h.inside other hother
    omega
  refine ⟨?_, ?_, ?_, ?_, ?_⟩
  · rw [List.forall_mem_append]
    exact ⟨h.aligned, by simpa using haligned⟩
  · rw [List.forall_mem_append, ← hstop]
    refine ⟨fun other hother => ?_, by simp⟩
    exact Nat.le_trans (hbehind other hother) (Nat.le_add_right _ _)
  · rw [List.pairwise_append]
    exact ⟨h.ordered, List.pairwise_singleton _ _, by simpa using hbehind⟩
  · rw [List.getLast?_concat, ← hstop]
    rfl
  · intro place byte hbyte houtside
    rw [List.forall_mem_append, List.forall_mem_singleton] at houtside
    obtain ⟨hothers, hrun⟩ := houtside
    -- the byte is an old one, one of the new zeros, or inside of the new run
    by_cases hold : place < bytes.length
    · rw [List.append_assoc, List.getElem?_append_left hold] at hbyte
      exact h.zeros place byte hbyte hothers
    · by_cases hzero : place < run.start
      · rw [List.append_assoc, List.getElem?_append_right (by omega),
          List.getElem?_append_left (by simp; omega)] at hbyte
        exact List.eq_of_mem_replicate (List.mem_of_getElem? hbyte)
      · have hlt := (List.getElem?_eq_some_iff.1 hbyte).1
        omega

end Layout

namespace MergedPostings

/-- The runs of a merge, in the order of their units. -/
def runs (merged : MergedPostings) : List TokenEntry :=
  merged.directory.entries.map Prod.snd

variable {merged : MergedPostings}

/-- A list of a unit behind all others is added at the end of the directory. -/
theorem entries_add {unit : String} (hlast : ∀ other ∈ merged.directory.keys, other < unit)
    (words : Postings) : (merged.add unit words).directory.entries =
      merged.directory.entries ++ [(unit,
        ⟨(merged.writer.fill PostingsFile.alignment).position, words.normalize.byteSize,
          .ofNat words.normalize.documentCount⟩)] :=
  Table.entries_insert_last hlast _

/-- A list of a unit behind all others is laid out behind them. -/
theorem layout_add (hsound : merged.writer.Sound)
    (h : Layout merged.runs merged.writer.toBytes) {unit : String}
    (hlast : ∀ other ∈ merged.directory.keys, other < unit) (words : Postings) :
    Layout (merged.add unit words).runs (merged.add unit words).writer.toBytes := by
  obtain ⟨count, hfill⟩ := Writer.toBytes_fill merged.writer PostingsFile.alignment
  have hposition := hsound.fill PostingsFile.alignment
  rw [Writer.Sound, hfill, List.length_append, List.length_replicate] at hposition
  have hbytes : (merged.add unit words).writer.toBytes =
      merged.writer.toBytes ++ List.replicate count 0 ++ Bytes.ofWords words.normalize := by
    rw [← hfill]
    exact Writer.toBytes_putBytes _ _
  rw [runs, entries_add hlast, List.map_append, hbytes]
  exact h.append hposition (Writer.position_fill merged.writer (by decide))
    (Bytes.length_ofWords _).symm

/-- Lists that are added in ascending order of their units, behind those that were added before,
have their runs in this order. -/
theorem layout_addAll {lists : List (String × Postings)} (hsound : merged.writer.Sound)
    (h : Layout merged.runs merged.writer.toBytes)
    (hsorted : (merged.directory.keys ++ lists.map Prod.fst).Pairwise (· < ·)) :
    (MergeOutcome.addAll merged lists).writer.Sound ∧
      Layout (MergeOutcome.addAll merged lists).runs
        (MergeOutcome.addAll merged lists).writer.toBytes ∧
      (MergeOutcome.addAll merged lists).directory.keys =
        merged.directory.keys ++ lists.map Prod.fst := by
  induction lists generalizing merged with
  | nil => exact ⟨hsound, h, (List.append_nil _).symm⟩
  | cons list rest ih =>
      have hlast : ∀ other ∈ merged.directory.keys, other < list.1 := fun other hother =>
        (List.pairwise_append.1 hsorted).2.2 other hother list.1 List.mem_cons_self
      have hkeys : (merged.add list.1 list.2).directory.keys =
          merged.directory.keys ++ [list.1] := by
        rw [Table.keys, entries_add hlast, List.map_append]
        rfl
      have hnext := @ih (merged.add list.1 list.2)
        ((hsound.fill PostingsFile.alignment).putBytes _) (layout_add hsound h hlast list.2)
      rw [hkeys, List.append_assoc] at hnext
      exact hnext hsorted

/-- The lists of a table are laid out in ascending order of their units. -/
theorem layout_entries (table : Table Postings) :
    (MergeOutcome.addAll {} table.entries).writer.Sound ∧
      Layout (MergeOutcome.addAll {} table.entries).runs
        (MergeOutcome.addAll {} table.entries).writer.toBytes ∧
      (MergeOutcome.addAll {} table.entries).directory.keys = table.keys :=
  layout_addAll Writer.Sound.empty Layout.nil (List.pairwise_map.2 table.sorted)

end MergedPostings
end Concordance
