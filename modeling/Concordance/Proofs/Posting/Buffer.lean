import Concordance.Posting.Buffer

/-!
# Buffers as lists

A buffer holds a list of words if its allocation begins with them and as many are in use
(`Buffer.Holds`). Each operation on a buffer that holds a list succeeds, unless its index is not in
use, and the buffer then holds what the same operation makes of the list (`Holds.perform`). As every
access refuses what is outside the allocation or was never written, no operation ever leaves the
allocation or meets such a word (`buffer_exact`). Allocations are taken to succeed.
-/

namespace Concordance
namespace Buffer

variable {buffer : Buffer} {words kept remaining : List Word}
  {front free back gap spare : List (Option Word)} {cell : Option Word} {word : Word}
  {place : Nat}

/-! ## Single words -/

/-- The capacity is the number of cells. -/
theorem capacity_eq_length (buffer : Buffer) : buffer.capacity = buffer.cells.toList.length :=
  Array.length_toList.symm

/-- A word that was written can be read. -/
theorem read_eq (h : buffer.cells.toList[place]? = some (some word)) :
    buffer.read place = .ok word := by
  rw [Array.getElem?_toList] at h
  rw [read, h]

/-- Every place of the allocation can be written, and nothing else changes. -/
theorem exists_write (h : place < buffer.capacity) (word : Word) :
    ∃ after, buffer.write place word = .ok after ∧ after.length = buffer.length ∧
      after.cells.toList = buffer.cells.toList.set place (some word) ∧
      after.capacity = buffer.capacity := by
  rw [write, if_pos h]
  exact ⟨_, rfl, rfl, Array.toList_setIfInBounds, Array.size_setIfInBounds⟩

/-- The word behind some others is replaced. -/
theorem exists_write_behind (h : buffer.cells.toList = front ++ cell :: back) (word : Word) :
    ∃ after, buffer.write front.length word = .ok after ∧
      after.cells.toList = front ++ some word :: back ∧ after.capacity = buffer.capacity := by
  have hinside : front.length < buffer.capacity := by
    rw [capacity_eq_length, h, List.length_append, List.length_cons]
    omega
  obtain ⟨after, hwrite, -, hcells, hcapacity⟩ := exists_write hinside word
  refine ⟨after, hwrite, ?_, hcapacity⟩
  rw [hcells, h, List.set_append_right _ _ (Nat.le_refl _), Nat.sub_self, List.set_cons_zero]

/-- A word behind the ones that were given up is moved to the first of their places, or to its own
if there are none. -/
theorem exists_move (h : buffer.cells.toList = kept.map some ++ gap ++ some word :: back) :
    ∃ after later, buffer.write kept.length word = .ok after ∧ later.length = gap.length ∧
      after.cells.toList = (kept ++ [word]).map some ++ later ++ back ∧
      after.capacity = buffer.capacity := by
  obtain ⟨cell, later, hgap⟩ := List.exists_cons_of_ne_nil
    (List.append_ne_nil_of_right_ne_nil gap (List.cons_ne_nil (some word) []))
  have hlength : later.length = gap.length := by
    have heq := congrArg List.length hgap
    rw [List.length_append, List.length_singleton, List.length_cons] at heq
    exact (Nat.succ.inj heq).symm
  have hbehind : buffer.cells.toList = kept.map some ++ cell :: (later ++ back) := by
    rw [← List.cons_append, ← hgap, h]
    simp
  obtain ⟨after, hwrite, hcells, hcapacity⟩ := exists_write_behind hbehind word
  rw [List.length_map] at hwrite
  refine ⟨after, later, hwrite, hlength, ?_, hcapacity⟩
  rw [hcells]
  simp

/-- A buffer that has to grow at least doubles, and has at least the least capacity. -/
theorem capacity_grow (buffer : Buffer) (required : Nat) :
    (buffer.grow required).capacity =
      max (max required (2 * buffer.capacity)) leastCapacity := by
  have hsize : (buffer.grow required).capacity =
      buffer.capacity + (max (max required (2 * buffer.capacity)) leastCapacity -
        buffer.capacity) := by
    rw [grow, capacity, Array.size_append, Array.size_replicate, capacity]
  omega

/-! ## Several words -/

/-- Reading all indices of a list, each of which yields its word, yields the list. -/
theorem mapM_range_eq {words : List Word} {f : Nat → Except Failure Word}
    (h : ∀ index (hindex : index < words.length), f index = .ok words[index]) :
    (List.range words.length).mapM f = .ok words := by
  induction words generalizing f with
  | nil => rfl
  | cons word words ih =>
      have hrest := @ih (f ∘ Nat.succ) fun index hindex =>
        h (index + 1) (Nat.succ_lt_succ hindex)
      rw [List.length_cons, List.range_succ_eq_map, List.mapM_cons, h 0 (Nat.zero_lt_succ _),
        List.mapM_map, hrest]
      rfl

/-- Words are copied into the places behind some others. -/
theorem exists_copyFrom (h : buffer.cells.toList = front ++ free ++ back)
    (hfree : free.length = words.length) :
    ∃ after, buffer.copyFrom front.length words = .ok after ∧
      after.cells.toList = front ++ words.map some ++ back ∧
      after.capacity = buffer.capacity := by
  induction words generalizing buffer front free with
  | nil =>
      rw [List.length_eq_zero_iff.1 hfree] at h
      exact ⟨buffer, rfl, h, rfl⟩
  | cons word words ih =>
      obtain ⟨cell, free, rfl⟩ := List.exists_cons_of_length_eq_add_one hfree
      rw [List.append_assoc, List.cons_append] at h
      obtain ⟨written, hwrite, hcells, hwritten⟩ := exists_write_behind h word
      have hnext : written.cells.toList = front ++ [some word] ++ free ++ back := by
        rw [hcells]
        simp
      obtain ⟨after, hcopy, hcells', hcapacity⟩ := ih hnext (Nat.succ.inj hfree)
      rw [List.length_append, List.length_singleton] at hcopy
      refine ⟨after, ?_, ?_, hcapacity.trans hwritten⟩
      · rw [copyFrom, hwrite]
        exact hcopy
      · rw [hcells']
        simp

/-- While words are moved to the front, the kept ones stand at the front, the ones that were not
looked at yet stand where they were, and what is between them is given up. -/
theorem exists_compact (keep : Word → Bool)
    (h : buffer.cells.toList = kept.map some ++ gap ++ remaining.map some ++ spare) :
    ∃ after, compact keep remaining.length (kept.length + gap.length) kept.length buffer =
        .ok ((kept ++ remaining.filter keep).length, after) ∧
      (kept ++ remaining.filter keep).map some <+: after.cells.toList ∧
      after.capacity = buffer.capacity := by
  induction remaining generalizing buffer kept gap with
  | nil =>
      rw [List.filter_nil, List.append_nil]
      refine ⟨buffer, rfl, ?_, rfl⟩
      rw [h, List.append_assoc, List.append_assoc]
      exact List.prefix_append _ _
  | cons word remaining ih =>
      have hread : buffer.read (kept.length + gap.length) = .ok word := by
        refine read_eq ?_
        rw [h]
        simp
      rw [List.length_cons, compact, hread]
      by_cases hkeep : keep word = true
      · have hbehind : buffer.cells.toList =
            kept.map some ++ gap ++ some word :: (remaining.map some ++ spare) := by
          rw [h, List.map_cons, List.append_assoc _ (_ :: _), List.cons_append]
        obtain ⟨written, later, hwrite, hlength, hcells, hmoved⟩ := exists_move hbehind
        rw [← List.append_assoc] at hcells
        obtain ⟨after, hcompact, hkept, hcapacity⟩ := ih hcells
        rw [List.append_assoc, List.singleton_append] at hcompact hkept
        rw [List.length_append, List.length_singleton, hlength, Nat.add_right_comm] at hcompact
        rw [List.filter_cons_of_pos hkeep]
        refine ⟨after, ?_, hkept, hcapacity.trans hmoved⟩
        rw [← hcompact]
        simp only [bind, Except.bind, if_pos hkeep, hwrite]
      · have hnext : buffer.cells.toList =
            kept.map some ++ (gap ++ [some word]) ++ remaining.map some ++ spare := by
          rw [h]
          simp
        obtain ⟨after, hcompact, hkept, hcapacity⟩ := ih hnext
        rw [List.filter_cons_of_neg hkeep]
        refine ⟨after, ?_, hkept, hcapacity⟩
        rw [List.length_append, List.length_singleton, ← Nat.add_assoc] at hcompact
        rw [← hcompact]
        simp only [bind, Except.bind, if_neg hkeep]

/-! ## Buffers that hold a list -/

/-- The allocation begins with these words, which were all written, and they are in use. -/
structure Holds (buffer : Buffer) (words : List Word) : Prop where
  length : buffer.length = words.length
  written : words.map some <+: buffer.cells.toList

/-- The capacity after room was made for a number of words. -/
def roomFor (required capacity : Nat) : Nat :=
  if required ≤ capacity then capacity else max (max required (2 * capacity)) leastCapacity

/-- There is room for what was required. -/
theorem le_roomFor (required capacity : Nat) : required ≤ roomFor required capacity := by
  unfold roomFor
  split
  · assumption
  · omega

namespace Holds

/-- The words in a buffer fit into its capacity. -/
theorem room (h : buffer.Holds words) : words.length ≤ buffer.capacity := by
  rw [capacity_eq_length, ← List.length_map (f := some)]
  exact h.written.length_le

/-- The cells in front hold the words. -/
theorem getElem?_cells (h : buffer.Holds words) {index : Nat} (hindex : index < words.length) :
    buffer.cells.toList[index]? = some (some words[index]) := by
  have hmap : index < (words.map some).length := by
    rwa [List.length_map]
  rw [List.prefix_iff_getElem?.1 h.written index hmap, List.getElem_map]

/-- As a list, a buffer is the words it holds. -/
theorem toList_eq (h : buffer.Holds words) : buffer.toList = words := by
  obtain ⟨spare, hspare⟩ := h.written
  rw [toList, ← hspare, h.length, List.take_left' (List.length_map some)]
  simp

/-- Every word in use is read, and no index behind them is accepted. -/
theorem get_eq (h : buffer.Holds words) (index : Nat) :
    buffer.get index =
      match words[index]? with
      | some word => .ok word
      | none => .error .indexOutOfRange := by
  rw [get, h.length]
  by_cases hindex : index < words.length
  · rw [if_pos hindex, List.getElem?_eq_getElem hindex]
    exact read_eq (h.getElem?_cells hindex)
  · rw [if_neg hindex, List.getElem?_eq_none (Nat.le_of_not_lt hindex)]

/-- The words that a buffer holds can be read, as none of their cells is blank. -/
theorem contents_eq (h : buffer.Holds words) : buffer.contents = .ok words := by
  rw [contents, h.length]
  exact mapM_range_eq fun index hindex => read_eq (h.getElem?_cells hindex)

/-! ### Constructors -/

/-- A new buffer holds nothing, whatever its capacity. -/
theorem withCapacity (capacity : Nat) : (Buffer.withCapacity capacity).Holds [] :=
  ⟨rfl, List.nil_prefix⟩

/-- Growing keeps the words. -/
theorem grow (h : buffer.Holds words) (required : Nat) : (buffer.grow required).Holds words := by
  refine ⟨h.length, h.written.trans ?_⟩
  rw [Buffer.grow, Array.toList_append]
  exact List.prefix_append _ _

/-- Room is made only if there is not enough of it. -/
theorem makeRoom (h : buffer.Holds words) (required : Nat) :
    ∃ roomy, (if required > buffer.capacity then buffer.grow required else buffer) = roomy ∧
      roomy.Holds words ∧ roomy.capacity = roomFor required buffer.capacity := by
  refine ⟨_, rfl, ?_⟩
  unfold roomFor
  split
  · rename_i hmore
    rw [if_neg (Nat.not_le.2 hmore)]
    exact ⟨h.grow required, capacity_grow buffer required⟩
  · rename_i hless
    rw [if_pos (Nat.le_of_not_lt hless)]
    exact ⟨h, rfl⟩

/-- Words are appended behind those in use. -/
theorem append (h : buffer.Holds words) (more : List Word) :
    ∃ after, buffer.append more = .ok after ∧ after.Holds (words ++ more) ∧
      after.capacity = roomFor (words.length + more.length) buffer.capacity := by
  cases more with
  | nil =>
      rw [List.append_nil, List.length_nil, Nat.add_zero, roomFor, if_pos h.room]
      exact ⟨buffer, rfl, h, rfl⟩
  | cons word more =>
      obtain ⟨roomy, hroomy, hholds, hcapacity⟩ :=
        h.makeRoom (words.length + (word :: more).length)
      obtain ⟨spare, hspare⟩ := hholds.written
      have hroom : (word :: more).length ≤ spare.length := by
        have hle := le_roomFor (words.length + (word :: more).length) buffer.capacity
        rw [← hcapacity, capacity_eq_length, ← hspare, List.length_append, List.length_map] at hle
        omega
      have hcells : roomy.cells.toList = words.map some ++ spare.take (word :: more).length ++
          spare.drop (word :: more).length := by
        rw [List.append_assoc, List.take_append_drop, hspare]
      obtain ⟨after, hcopy, hwritten, hkept⟩ :=
        exists_copyFrom hcells (List.length_take_of_le hroom)
      refine ⟨{ after with length := words.length + (word :: more).length }, ?_, ⟨?_, ?_⟩,
        hkept.trans hcapacity⟩
      · rw [List.length_map, ← hholds.length] at hcopy
        simp only [Buffer.append, List.isEmpty_cons, h.length, hroomy, hcopy]
        rfl
      · exact List.length_append.symm
      · rw [List.map_append, hwritten]
        exact List.prefix_append _ _

/-- Pushing a word is appending a single one. -/
theorem push_eq_append (h : buffer.Holds words) (word : Word) :
    buffer.push word = buffer.append [word] := by
  have hroom := h.room
  rw [← h.length] at hroom
  have hroomy : (if buffer.length = buffer.capacity then buffer.grow (buffer.length + 1)
      else buffer) =
      if buffer.length + [word].length > buffer.capacity then
        buffer.grow (buffer.length + [word].length) else buffer := by
    by_cases hfull : buffer.length = buffer.capacity
    · rw [if_pos hfull, if_pos (by rw [List.length_singleton]; omega), List.length_singleton]
    · rw [if_neg hfull, if_neg (by rw [List.length_singleton]; omega)]
  obtain ⟨roomy, hmade, hholds, -⟩ := h.makeRoom (buffer.length + [word].length)
  simp only [push, Buffer.append, List.isEmpty_cons, hroomy, hmade, copyFrom]
  rw [hholds.length, h.length]
  cases roomy.write words.length word with
  | error failure => rfl
  | ok written => rfl

/-- Pushing adds a word, and makes room for it if there is none. -/
theorem push (h : buffer.Holds words) (word : Word) :
    ∃ after, buffer.push word = .ok after ∧ after.Holds (words ++ [word]) ∧
      after.capacity = roomFor (words.length + 1) buffer.capacity := by
  rw [h.push_eq_append]
  exact h.append [word]

/-- A buffer made of words holds them, and has no room left. -/
theorem ofList (words : List Word) :
    ∃ after, Buffer.ofList words = .ok after ∧ after.Holds words ∧
      after.capacity = words.length := by
  obtain ⟨after, happend, hholds, hcapacity⟩ := (Holds.withCapacity words.length).append words
  refine ⟨after, happend, hholds, ?_⟩
  have hexact : (Buffer.withCapacity words.length).capacity = words.length :=
    Array.size_replicate
  rw [hcapacity, hexact, List.length_nil, Nat.zero_add, roomFor, if_pos (Nat.le_refl _)]

/-- A copy holds the same words, and has no room left. -/
theorem copy (h : buffer.Holds words) :
    ∃ after, buffer.copy = .ok after ∧ after.Holds words ∧ after.capacity = words.length := by
  rw [Buffer.copy, h.contents_eq]
  exact Holds.ofList words

/-- Truncating keeps the first words, and the capacity. -/
theorem truncate (h : buffer.Holds words) (length : Nat) :
    (buffer.truncate length).Holds (words.take length) ∧
      (buffer.truncate length).capacity = buffer.capacity := by
  rw [Buffer.truncate, h.length]
  split
  · rename_i hless
    exact ⟨⟨(List.length_take_of_le (Nat.le_of_lt hless)).symm,
      ((List.take_prefix length words).map some).trans h.written⟩, rfl⟩
  · rename_i hmore
    rw [List.take_of_length_le (Nat.le_of_not_lt hmore)]
    exact ⟨h, rfl⟩

/-- Clearing leaves no words, and the capacity as it is. -/
theorem clear (buffer : Buffer) :
    buffer.clear.Holds [] ∧ buffer.clear.capacity = buffer.capacity :=
  ⟨⟨rfl, List.nil_prefix⟩, rfl⟩

/-- The words that are kept are moved to the front. -/
theorem retain (h : buffer.Holds words) (keep : Word → Bool) :
    ∃ after, buffer.retain keep = .ok after ∧ after.Holds (words.filter keep) ∧
      after.capacity = buffer.capacity := by
  obtain ⟨spare, hspare⟩ := h.written
  obtain ⟨written, hcompact, hwritten, hcapacity⟩ :=
    @exists_compact buffer [] words [] spare keep hspare.symm
  refine ⟨{ written with length := (words.filter keep).length }, ?_, ⟨rfl, hwritten⟩, hcapacity⟩
  rw [Buffer.retain, h.length]
  simp only [List.length_nil, Nat.add_zero, List.nil_append] at hcompact
  rw [hcompact]
  rfl

/-- A word in use is replaced. -/
theorem set (h : buffer.Holds words) {index : Nat} (hindex : index < words.length) (word : Word) :
    ∃ after, buffer.set index word = .ok after ∧ after.Holds (words.set index word) ∧
      after.capacity = buffer.capacity := by
  obtain ⟨spare, hspare⟩ := h.written
  obtain ⟨after, hwrite, hlength, hcells, hcapacity⟩ :=
    exists_write (Nat.lt_of_lt_of_le hindex h.room) word
  refine ⟨after, ?_, ⟨?_, ?_⟩, hcapacity⟩
  · rw [Buffer.set, h.length, if_pos hindex, hwrite]
  · rw [hlength, h.length, List.length_set]
  · rw [hcells, ← hspare, List.map_set,
      List.set_append_left _ _ (by rwa [List.length_map])]
    exact List.prefix_append _ _

end Holds

/-! ## Sequences of operations -/

/-- The operations on a buffer. Those that make a new one put it into the place of the old one. -/
inductive Operation where
  | withCapacity (capacity : Nat)
  | ofList (words : List Word)
  | push (word : Word)
  | append (words : List Word)
  | truncate (length : Nat)
  | clear
  | retain (keep : Word → Bool)
  | set (index : Nat) (word : Word)
  | copy

namespace Operation

/-- What an operation makes of a buffer. -/
def perform : Operation → Buffer → Except Failure Buffer
  | withCapacity capacity, _ => .ok (Buffer.withCapacity capacity)
  | ofList words, _ => Buffer.ofList words
  | push word, buffer => buffer.push word
  | append words, buffer => buffer.append words
  | truncate length, buffer => .ok (buffer.truncate length)
  | clear, buffer => .ok buffer.clear
  | retain keep, buffer => buffer.retain keep
  | set index word, buffer => buffer.set index word
  | copy, buffer => buffer.copy

/-- What an operation makes of a plain list. -/
def onList : Operation → List Word → List Word
  | withCapacity _, _ => []
  | ofList words, _ => words
  | push word, list => list ++ [word]
  | append words, list => list ++ words
  | truncate length, list => list.take length
  | clear, _ => []
  | retain keep, list => list.filter keep
  | set index word, list => list.set index word
  | copy, list => list

/-- The capacity after an operation on a buffer with this number of words and this capacity. -/
def capacityAfter : Operation → (length capacity : Nat) → Nat
  | withCapacity capacity, _, _ => capacity
  | ofList words, _, _ => words.length
  | push _, length, capacity => roomFor (length + 1) capacity
  | append words, length, capacity => roomFor (length + words.length) capacity
  | copy, length, _ => length
  | _, _, capacity => capacity

/-- The index of an operation is not in use. -/
def Refused : Operation → (length : Nat) → Prop
  | set index _, length => length ≤ index
  | _, _ => False

end Operation

/-- An index that is not in use is refused. -/
theorem Holds.refuse (h : buffer.Holds words) {operation : Operation}
    (hrefused : operation.Refused words.length) :
    operation.perform buffer = .error .indexOutOfRange := by
  cases operation with
  | set index word =>
      have hle : words.length ≤ index := hrefused
      rw [Operation.perform, Buffer.set, h.length, if_neg (Nat.not_lt.2 hle)]
  | _ => exact hrefused.elim

/-- An operation that is not refused succeeds, and the buffer then holds what the operation makes of
the list. -/
theorem Holds.perform (h : buffer.Holds words) {operation : Operation}
    (haccepted : ¬ operation.Refused words.length) :
    ∃ after, operation.perform buffer = .ok after ∧ after.Holds (operation.onList words) ∧
      after.capacity = operation.capacityAfter words.length buffer.capacity := by
  cases operation with
  | withCapacity capacity =>
      exact ⟨_, rfl, Holds.withCapacity capacity, Array.size_replicate⟩
  | ofList words => exact Holds.ofList words
  | push word => exact h.push word
  | append more => exact h.append more
  | truncate length => exact ⟨_, rfl, h.truncate length⟩
  | clear => exact ⟨_, rfl, Holds.clear buffer⟩
  | retain keep => exact h.retain keep
  | set index word => exact h.set (Nat.lt_of_not_le haccepted) word
  | copy => exact h.copy

/-- The buffer after an operation. One that is refused changes nothing. -/
def Operation.after (operation : Operation) (buffer : Buffer) : Buffer :=
  match operation.perform buffer with
  | .ok changed => changed
  | .error _ => buffer

/-- An operation does to a buffer what it does to its words. -/
theorem Holds.after (h : buffer.Holds words) (operation : Operation) :
    (operation.after buffer).Holds (operation.onList words) := by
  by_cases hrefused : operation.Refused words.length
  · rw [Operation.after, h.refuse hrefused]
    cases operation with
    | set index word =>
        rw [Operation.onList, List.set_eq_of_length_le hrefused]
        exact h
    | _ => exact hrefused.elim
  · obtain ⟨changed, hperform, hholds, -⟩ := h.perform hrefused
    rw [Operation.after, hperform]
    exact hholds

/-- The buffer after some operations on one without an allocation. -/
def afterAll (operations : List Operation) : Buffer :=
  operations.foldl (fun buffer operation => operation.after buffer) empty

/-- The list after some operations on the empty one. -/
def listAfterAll (operations : List Operation) : List Word :=
  operations.foldl (fun list operation => operation.onList list) []

/-- After any operations a buffer holds what they make of a list. -/
theorem holds_afterAll (operations : List Operation) :
    (afterAll operations).Holds (listAfterAll operations) := by
  have hgeneral : ∀ (buffer : Buffer) (words : List Word), buffer.Holds words →
      (operations.foldl (fun buffer operation => operation.after buffer) buffer).Holds
        (operations.foldl (fun list operation => operation.onList list) words) := by
    induction operations with
    | nil => exact fun _ _ h => h
    | cons operation operations ih => exact fun _ _ h => ih _ _ (h.after operation)
  exact hgeneral empty [] (Holds.withCapacity 0)

/-- **A buffer behaves as a list and stays inside its allocation.** After any operations its
contents are those of the list on which the same operations were performed. They fit into the
allocation and were all written, and exactly the indices in use can be read. A write outside an
allocation is refused, and no operation is refused for such a write or for reading what was never
written: each one succeeds unless its index is not in use. The new capacity is what a constructor or
a copy asks for, the old one while there is room, and otherwise the largest of what is needed, twice
the old one, and eight. -/
theorem buffer_exact (operations : List Operation) :
    let buffer := afterAll operations
    let words := listAfterAll operations
    buffer.contents = .ok words ∧ buffer.toList = words ∧
    buffer.length = words.length ∧ buffer.length ≤ buffer.capacity ∧
    (∀ index < buffer.length, ∃ word, buffer.cells[index]? = some (some word)) ∧
    (∀ index, buffer.get index =
      match words[index]? with
      | some word => .ok word
      | none => .error .indexOutOfRange) ∧
    (∀ (any : Buffer) (place : Nat) (word : Word), any.capacity ≤ place →
      any.write place word = .error .outsideAllocation) ∧
    ∀ operation : Operation,
      (operation.Refused words.length →
        operation.perform buffer = .error .indexOutOfRange) ∧
      (¬ operation.Refused words.length →
        ∃ after, operation.perform buffer = .ok after ∧
          after.contents = .ok (operation.onList words) ∧
          after.capacity = operation.capacityAfter words.length buffer.capacity) := by
  have h := holds_afterAll operations
  refine ⟨h.contents_eq, h.toList_eq, h.length, ?_, fun index hindex => ?_, h.get_eq,
    fun any place word hplace => ?_, fun operation => ⟨h.refuse, fun haccepted => ?_⟩⟩
  · rw [h.length]
    exact h.room
  · rw [h.length] at hindex
    rw [← Array.getElem?_toList]
    exact ⟨_, h.getElem?_cells hindex⟩
  · rw [write, if_neg (Nat.not_lt.2 hplace)]
  · obtain ⟨after, hperform, hholds, hcapacity⟩ := h.perform haccepted
    exact ⟨after, hperform, hholds.contents_eq, hcapacity⟩

/-- Operations that keep some words in place, grow, give up words, and start anew with a copy. -/
def mixedOperations : List Operation :=
  [.ofList [7, 0, 8], .retain (· ≠ 0), .push 9, .push 10, .truncate 2, .copy, .clear]

/-- The copy had room for two words, so the third one makes it grow. No index was in use before. -/
theorem buffer_exact_mixed :
    (Operation.set 0 1).perform (afterAll mixedOperations) = .error .indexOutOfRange ∧
    ∃ after, (Operation.append [1, 2, 3]).perform (afterAll mixedOperations) = .ok after ∧
      after.contents = .ok [1, 2, 3] ∧ after.capacity = 8 := by
  obtain ⟨-, -, -, -, -, -, -, hperform⟩ := buffer_exact mixedOperations
  have hcapacity : (afterAll mixedOperations).capacity = 2 := by decide
  obtain ⟨after, happend, hcontents, hgrown⟩ := (hperform (.append [1, 2, 3])).2 id
  have hrefused : (listAfterAll mixedOperations).length ≤ 0 := by decide
  refine ⟨(hperform (.set 0 1)).1 hrefused, after, happend, hcontents, ?_⟩
  rw [hgrown, hcapacity]
  decide

end Buffer
end Concordance
