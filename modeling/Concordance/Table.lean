/-!
# Tables

A table assigns values to keys, which are texts. Its entries are held in strictly
ascending order of their keys, so that two tables with the same entries are equal
and the entries come out in one order. Texts are ordered by their characters'
code points, which is also the order of their UTF-8 bytes.
-/

namespace Concordance

/-- Entries in strictly ascending order of their keys. -/
structure Table (α : Type u) where
  entries : List (String × α) := []
  sorted : entries.Pairwise (fun first second => first.1 < second.1) := by exact List.Pairwise.nil

namespace Table

/-- The table without entries. -/
def empty : Table α := {}

/-- By default a table has no entries. -/
instance : Inhabited (Table α) := ⟨empty⟩

/-- Put an entry into its place among entries, instead of an entry with the same key. -/
def insertEntry (key : String) (value : α) : List (String × α) → List (String × α)
  | [] => [(key, value)]
  | (other, old) :: rest =>
      if key < other then (key, value) :: (other, old) :: rest
      else if key = other then (key, value) :: rest
      else (other, old) :: insertEntry key value rest

/-- An entry after insertion is the new one or an old one. -/
theorem mem_of_mem_insertEntry {key : String} {value : α} {entries : List (String × α)}
    {entry : String × α} (h : entry ∈ insertEntry key value entries) :
    entry = (key, value) ∨ entry ∈ entries := by
  induction entries with
  | nil => simpa [insertEntry] using h
  | cons first rest ih =>
      obtain ⟨other, old⟩ := first
      unfold insertEntry at h
      split at h
      · simpa using h
      · split at h
        · rcases List.mem_cons.1 h with hsame | hlater
          · exact Or.inl hsame
          · exact Or.inr (List.mem_cons_of_mem _ hlater)
        · rcases List.mem_cons.1 h with hsame | hlater
          · exact Or.inr (hsame ▸ List.mem_cons_self)
          · exact (ih hlater).imp id (List.mem_cons_of_mem _)

/-- Insertion keeps the order of the keys. -/
theorem pairwise_insertEntry (key : String) (value : α) {entries : List (String × α)}
    (hsorted : entries.Pairwise (fun first second => first.1 < second.1)) :
    (insertEntry key value entries).Pairwise (fun first second => first.1 < second.1) := by
  induction entries with
  | nil => simp [insertEntry]
  | cons first rest ih =>
      obtain ⟨other, old⟩ := first
      obtain ⟨habove, hlater⟩ := List.pairwise_cons.1 hsorted
      unfold insertEntry
      split
      · rename_i hless
        refine List.pairwise_cons.2 ⟨fun entry hmem => ?_, hsorted⟩
        rcases List.mem_cons.1 hmem with hsame | hrest
        · exact hsame ▸ hless
        · exact String.lt_trans hless (habove entry hrest)
      · split
        · rename_i hsame
          exact List.pairwise_cons.2 ⟨fun entry hmem => hsame ▸ habove entry hmem, hlater⟩
        · rename_i hnotLess hdifferent
          refine List.pairwise_cons.2 ⟨fun entry hmem => ?_, ih hlater⟩
          rcases mem_of_mem_insertEntry hmem with hsame | hrest
          · subst hsame
            exact Std.lt_of_le_of_ne (String.not_lt.1 hnotLess) (Ne.symm hdifferent)
          · exact habove entry hrest

/-- Assign a value to a key, in place of an earlier one. -/
def insert (table : Table α) (key : String) (value : α) : Table α :=
  ⟨insertEntry key value table.entries, pairwise_insertEntry key value table.sorted⟩

/-- The value of a key. -/
def find? (table : Table α) (key : String) : Option α :=
  table.entries.lookup key

/-- Whether a key has a value. -/
def contains (table : Table α) (key : String) : Bool :=
  (table.find? key).isSome

/-- Assign to a key what `change` makes of its value. -/
def alter (table : Table α) (key : String) (change : Option α → α) : Table α :=
  table.insert key (change (table.find? key))

/-- Take the value of a key away. -/
def erase (table : Table α) (key : String) : Table α :=
  ⟨table.entries.filter fun entry => entry.1 ≠ key, table.sorted.filter _⟩

/-- Bring the values of each key together, in their order. -/
def collect (entries : List (String × α)) : Table (List α) :=
  entries.foldr (fun (key, value) table => table.alter key fun values => value :: values.getD [])
    empty

/-- The number of entries. -/
def size (table : Table α) : Nat :=
  table.entries.length

/-- Whether there are no entries. -/
def isEmpty (table : Table α) : Bool :=
  table.entries.isEmpty

/-- The keys, ascending. -/
def keys (table : Table α) : List String :=
  table.entries.map (·.1)

/-- The table of these entries. Of several with one key the last counts. -/
def ofList (entries : List (String × α)) : Table α :=
  entries.foldl (fun table entry => table.insert entry.1 entry.2) empty

end Table

end Concordance
