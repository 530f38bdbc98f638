import Concordance.Failure
import Concordance.Posting.Word

/-!
# Word buffers

A buffer owns an allocation of words, of which it uses the first few. A word of
the allocation that was never written has no value. Every access goes through
`read` and `write`, which refuse to touch memory outside the allocation, and
`read` refuses as well what was never written, so an operation that never fails
stays inside its allocation and sees no uninitialised word. `Buffer.toList`
gives the contents as a plain list.
-/

namespace Concordance

/-- An allocation of words together with the number of words in use. -/
structure Buffer where
  /-- The words of the allocation; `none` was never written. -/
  cells : Array (Option Word) := #[]
  /-- The number of words in use, from the front. -/
  length : Nat := 0
deriving Repr

namespace Buffer

/-- The capacity a buffer takes when it first grows. -/
def leastCapacity : Nat := 8

/-- The number of words of the allocation. -/
def capacity (buffer : Buffer) : Nat :=
  buffer.cells.size

/-- A buffer without an allocation. -/
def empty : Buffer := {}

/-- A buffer without contents and with room for this many words. -/
def withCapacity (capacity : Nat) : Buffer :=
  ⟨Array.replicate capacity none, 0⟩

/-- Read the word of the allocation at a place. -/
def read (buffer : Buffer) (place : Nat) : Except Failure Word :=
  match buffer.cells[place]? with
  | some (some word) => .ok word
  | _ => .error .outsideAllocation

/-- Write the word of the allocation at a place. -/
def write (buffer : Buffer) (place : Nat) (word : Word) : Except Failure Buffer :=
  if place < buffer.capacity then
    .ok { buffer with cells := buffer.cells.setIfInBounds place (some word) }
  else .error .outsideAllocation

/-- Move the contents to an allocation that holds at least `required` words and at least twice as
many as the present one. -/
def grow (buffer : Buffer) (required : Nat) : Buffer :=
  let capacity := max (max required (2 * buffer.capacity)) leastCapacity
  { buffer with
    cells := buffer.cells ++ Array.replicate (capacity - buffer.capacity) none }

/-- Append one word, growing when the allocation is full. -/
def push (buffer : Buffer) (word : Word) : Except Failure Buffer := do
  let roomy := if buffer.length = buffer.capacity then buffer.grow (buffer.length + 1) else buffer
  let written ← roomy.write roomy.length word
  pure { written with length := roomy.length + 1 }

/-- Copy words to consecutive places. -/
def copyFrom (buffer : Buffer) (place : Nat) : List Word → Except Failure Buffer
  | [] => .ok buffer
  | word :: rest => do
      let written ← buffer.write place word
      written.copyFrom (place + 1) rest

/-- Append several words, growing at most once. -/
def append (buffer : Buffer) (words : List Word) : Except Failure Buffer :=
  if words.isEmpty then .ok buffer
  else do
    let required := buffer.length + words.length
    let roomy := if required > buffer.capacity then buffer.grow required else buffer
    let written ← roomy.copyFrom roomy.length words
    pure { written with length := required }

/-- A buffer with these contents and no room beyond them. -/
def ofList (words : List Word) : Except Failure Buffer :=
  (withCapacity words.length).append words

/-- Give up the words from `length` on. The allocation stays. -/
def truncate (buffer : Buffer) (length : Nat) : Buffer :=
  if length < buffer.length then { buffer with length } else buffer

/-- Give up all words. The allocation stays. -/
def clear (buffer : Buffer) : Buffer :=
  { buffer with length := 0 }

/-- Move the words that satisfy `keep`, among the `remaining` ones from place `source` on, to the
places from `target` on, and return the place after the last of them. -/
def compact (keep : Word → Bool) : (remaining : Nat) → (source target : Nat) → Buffer →
    Except Failure (Nat × Buffer)
  | 0, _, target, buffer => .ok (target, buffer)
  | remaining + 1, source, target, buffer => do
      let word ← buffer.read source
      if keep word then
        let written ← buffer.write target word
        compact keep remaining (source + 1) (target + 1) written
      else compact keep remaining (source + 1) target buffer

/-- Keep the words that satisfy `keep`, in their order, in the same allocation. -/
def retain (buffer : Buffer) (keep : Word → Bool) : Except Failure Buffer := do
  let (length, written) ← compact keep buffer.length 0 0 buffer
  pure { written with length }

/-- The word at an index, which must be in use. -/
def get (buffer : Buffer) (index : Nat) : Except Failure Word :=
  if index < buffer.length then buffer.read index else .error .indexOutOfRange

/-- Replace the word at an index, which must be in use. -/
def set (buffer : Buffer) (index : Nat) (word : Word) : Except Failure Buffer :=
  if index < buffer.length then buffer.write index word else .error .indexOutOfRange

/-- The words in use, of which each was written before. -/
def contents (buffer : Buffer) : Except Failure (List Word) :=
  (List.range buffer.length).mapM buffer.read

/-- A copy with no room beyond the contents. -/
def copy (buffer : Buffer) : Except Failure Buffer := do
  ofList (← buffer.contents)

/-- The words in use as a plain list. -/
def toList (buffer : Buffer) : List Word :=
  (buffer.cells.toList.take buffer.length).filterMap id

/-- The words in use, written as decimal numbers in brackets. -/
def text (words : List Word) : String :=
  "[" ++ ", ".intercalate (words.map toString) ++ "]"

end Buffer

end Concordance
