import Concordance.Table
import Concordance.Proofs.Ordered

/-!
# Looking up in tables

A table is known by what it finds: a value is found exactly if it is an entry (`mem_entries`), and
tables that find the same are equal (`ext_find?`). Each change of a table is described by what is
found afterwards.
-/

namespace Concordance
namespace Table

variable {α β : Type}

/-! ## Entries and lookups -/

/-- Looking up a key looks at the first entry, and then at the others. -/
theorem lookup_cons (key other : String) (value : α) (rest : List (String × α)) :
    List.lookup key ((other, value) :: rest) =
      if key = other then some value else List.lookup key rest := by
  by_cases h : key = other
  · simp [h]
  · have hbeq : (key == other) = false := beq_eq_false_iff_ne.2 h
    simp [List.lookup_cons, h, hbeq]

/-- A key that no entry has is not found. -/
theorem lookup_eq_none {key : String} {entries : List (String × α)}
    (h : ∀ entry ∈ entries, entry.1 ≠ key) : List.lookup key entries = none := by
  induction entries with
  | nil => rfl
  | cons entry rest ih =>
      have hhead := h entry List.mem_cons_self
      rw [lookup_cons, if_neg hhead.symm]
      exact ih fun later hlater => h later (List.mem_cons_of_mem _ hlater)

/-- In a list with ascending keys an entry is found under its key, and nothing else is. -/
theorem lookup_eq_some_iff {entries : List (String × α)}
    (hsorted : entries.Pairwise fun first second => first.1 < second.1) {key : String} {value : α} :
    List.lookup key entries = some value ↔ (key, value) ∈ entries := by
  induction entries with
  | nil => simp
  | cons entry rest ih =>
      obtain ⟨other, old⟩ := entry
      obtain ⟨habove, hrest⟩ := List.pairwise_cons.1 hsorted
      rw [lookup_cons, List.mem_cons]
      by_cases h : key = other
      · subst h
        have hnot : (key, value) ∉ rest := fun hmem => String.lt_irrefl key (habove _ hmem)
        simp [hnot, eq_comm]
      · simp [h, ih hrest]

/-- A value is found exactly if it is an entry. -/
theorem mem_entries {table : Table α} {key : String} {value : α} :
    (key, value) ∈ table.entries ↔ table.find? key = some value :=
  (lookup_eq_some_iff table.sorted).symm

/-- Tables with the same entries are equal. -/
theorem ext_entries {first second : Table α} (h : first.entries = second.entries) :
    first = second := by
  cases first
  cases second
  cases h
  rfl

/-- Tables that find the same are equal. -/
theorem ext_find? {first second : Table α} (h : ∀ key, first.find? key = second.find? key) :
    first = second := by
  apply ext_entries
  refine Ordered.eq_of_pairwise ?_ first.sorted second.sorted ?_
  · intro a b hab hba
    exact String.lt_irrefl _ (String.lt_trans hab hba)
  · intro entry
    rw [show entry = (entry.1, entry.2) from rfl, mem_entries, mem_entries, h]

/-- A key is contained if a value is found for it. -/
theorem contains_iff {table : Table α} {key : String} :
    table.contains key = true ↔ ∃ value, table.find? key = some value := by
  rw [contains, Option.isSome_iff_exists]

/-- The keys are those that have a value. -/
theorem mem_keys {table : Table α} {key : String} :
    key ∈ table.keys ↔ ∃ value, table.find? key = some value := by
  rw [keys, List.mem_map]
  constructor
  · intro h
    obtain ⟨⟨other, value⟩, hmem, rfl⟩ := h
    exact ⟨value, mem_entries.1 hmem⟩
  · intro h
    obtain ⟨value, hvalue⟩ := h
    exact ⟨(key, value), mem_entries.2 hvalue, rfl⟩

/-- A table is empty if no key has a value. -/
theorem isEmpty_iff {table : Table α} : table.isEmpty = true ↔ ∀ key, table.find? key = none := by
  rw [isEmpty, List.isEmpty_iff]
  constructor
  · intro h key
    rw [find?, h]
    rfl
  · intro h
    refine List.eq_nil_iff_forall_not_mem.2 fun entry hentry => ?_
    have hsome := mem_entries.1 (show (entry.1, entry.2) ∈ table.entries from hentry)
    rw [h] at hsome
    cases hsome

/-- Changing all values does not change where they are found. -/
theorem lookup_map (f : α → β) (key : String) (entries : List (String × α)) :
    List.lookup key (entries.map fun entry => (entry.1, f entry.2)) =
      (List.lookup key entries).map f := by
  induction entries with
  | nil => rfl
  | cons entry rest ih =>
      rw [List.map_cons, lookup_cons, show entry = (entry.1, entry.2) from rfl, lookup_cons, ih]
      split
      · rfl
      · rfl

/-! ## Changes -/

/-- Nothing is found in an empty table. -/
@[simp] theorem find?_empty (key : String) : (empty : Table α).find? key = none := rfl

/-- After an entry was inserted, its key has the new value, and all others have theirs. -/
theorem lookup_insertEntry (key other : String) (value : α) (entries : List (String × α)) :
    List.lookup other (insertEntry key value entries) =
      if other = key then some value else List.lookup other entries := by
  induction entries with
  | nil => exact lookup_cons other key value []
  | cons entry rest ih =>
      obtain ⟨next, old⟩ := entry
      unfold insertEntry
      split
      · exact lookup_cons other key value ((next, old) :: rest)
      · split
        · rename_i hsame
          subst hsame
          rw [lookup_cons, lookup_cons]
          split
          · rfl
          · rfl
        · rename_i hne
          rw [lookup_cons, lookup_cons, ih]
          by_cases hnext : other = next
          · have hother : other ≠ key := fun h => hne (h.symm.trans hnext)
            rw [if_pos hnext, if_neg hother, if_pos hnext]
          · rw [if_neg hnext, if_neg hnext]

/-- Insertion changes what is found under one key. -/
theorem find?_insert (table : Table α) (key other : String) (value : α) :
    (table.insert key value).find? other =
      if other = key then some value else table.find? other :=
  lookup_insertEntry key other value table.entries

/-- After a change, a key has what became of its value, and all others have theirs. -/
theorem find?_alter (table : Table α) (key other : String) (change : Option α → α) :
    (table.alter key change).find? other =
      if other = key then some (change (table.find? key)) else table.find? other :=
  find?_insert table key other _

/-- Erasing a key changes nothing under other keys. -/
theorem find?_erase (table : Table α) (key other : String) :
    (table.erase key).find? other = if other = key then none else table.find? other := by
  apply Option.ext
  intro value
  rw [← mem_entries]
  show (other, value) ∈ table.entries.filter (fun entry => entry.1 ≠ key) ↔ _
  rw [List.mem_filter, mem_entries]
  by_cases h : other = key
  · simp [h]
  · simp [h]

/-- A table in which nothing is found has no entries. -/
theorem entries_eq_nil {table : Table α} (h : ∀ key, table.find? key = none) :
    table.entries = [] :=
  List.isEmpty_iff.1 (isEmpty_iff.2 h)

/-- The entry with the least key comes first. -/
theorem entries_eq_cons {table : Table α} {key : String} {value : α}
    (hfound : table.find? key = some value)
    (hleast : ∀ other old, table.find? other = some old → key ≤ other) :
    table.entries = (key, value) :: (table.erase key).entries := by
  have hrest : ∀ entry ∈ (table.erase key).entries, key < entry.1 := by
    intro entry hentry
    obtain ⟨hmem, hne⟩ := List.mem_filter.1 hentry
    have hle := hleast entry.1 entry.2 (mem_entries.1 hmem)
    exact Std.lt_of_le_of_ne hle (Ne.symm (of_decide_eq_true hne))
  refine Ordered.eq_of_pairwise ?_ table.sorted
    (List.pairwise_cons.2 ⟨hrest, (table.erase key).sorted⟩) ?_
  · intro a b hab hba
    exact String.lt_irrefl _ (String.lt_trans hab hba)
  · intro entry
    rw [List.mem_cons, show entry = (entry.1, entry.2) from rfl, mem_entries, mem_entries,
      find?_erase]
    by_cases h : entry.1 = key
    · rw [h, hfound]
      simp [eq_comm]
    · rw [if_neg h]
      exact (or_iff_right fun heq => h (Prod.mk.inj heq).1).symm

/-- A key above all others is put at the end. -/
theorem entries_insert_last {table : Table α} {key : String} (h : ∀ other ∈ table.keys, other < key)
    (value : α) : (table.insert key value).entries = table.entries ++ [(key, value)] := by
  suffices hentries : ∀ entries : List (String × α), (∀ entry ∈ entries, entry.1 < key) →
      insertEntry key value entries = entries ++ [(key, value)] from
    hentries table.entries fun entry hentry => h entry.1 (List.mem_map_of_mem hentry)
  intro entries hbelow
  induction entries with
  | nil => rfl
  | cons entry rest ih =>
      obtain ⟨hfirst, hrest⟩ := List.forall_mem_cons.1 hbelow
      have hne : key ≠ entry.1 := fun heq => String.lt_irrefl key (heq ▸ hfirst)
      rw [insertEntry, if_neg (String.not_lt.2 (Std.le_of_lt hfirst)), if_neg hne, ih hrest,
        List.cons_append]

/-- What is found after changes under the keys of one list after another, no key twice. -/
theorem find?_foldl_alter {entries : List (String × β)}
    (hsorted : entries.Pairwise fun first second => first.1 < second.1)
    (change : β → Option α → α) (table : Table α) (key : String) :
    (entries.foldl (fun table (entry : String × β) => table.alter entry.1 (change entry.2))
        table).find? key =
      match entries.lookup key with
      | some value => some (change value (table.find? key))
      | none => table.find? key := by
  induction entries generalizing table with
  | nil => rfl
  | cons entry rest ih =>
      obtain ⟨first, value⟩ := entry
      obtain ⟨habove, hrest⟩ := List.pairwise_cons.1 hsorted
      rw [List.foldl_cons, ih hrest, lookup_cons]
      by_cases h : key = first
      · have hnone : rest.lookup key = none :=
          lookup_eq_none fun later hlater heq => by
            have hlt : first < later.1 := habove later hlater
            rw [heq, h] at hlt
            exact String.lt_irrefl first hlt
        rw [hnone, if_pos h]
        show (table.alter first (change value)).find? key = _
        rw [find?_alter, if_pos h, h]
      · rw [if_neg h]
        show (match rest.lookup key with
          | some value' => some (change value' ((table.alter first (change value)).find? key))
          | none => (table.alter first (change value)).find? key) = _
        rw [find?_alter, if_neg h]

/-- Entering what is made of the entries of a table yields what is made of the table. -/
theorem find?_foldl_insert (table : Table β) (f : β → α) (key : String) :
    (table.entries.foldl (fun later (entry : String × β) => later.insert entry.1 (f entry.2))
        empty).find? key = (table.find? key).map f := by
  have hfound := find?_foldl_alter table.sorted (fun value (_ : Option α) => f value) empty key
  refine hfound.trans ?_
  show (match table.find? key with
    | some value => some (f value)
    | none => none) = _
  cases table.find? key with
  | none => rfl
  | some value => rfl

/-- The entries of a table make up this table. -/
theorem ofList_entries (table : Table α) : ofList table.entries = table := by
  apply ext_find?
  intro key
  exact (find?_foldl_insert table id key).trans (congrFun Option.map_id _)

/-- The first entries of a table. -/
def front (table : Table α) (count : Nat) : Table α :=
  ⟨table.entries.take count, table.sorted.sublist (List.take_sublist count _)⟩

/-- As many entries as there are make up the whole table. -/
theorem front_size (table : Table α) : table.front table.size = table :=
  ext_entries List.take_length

/-- Tables that find the same values up to a change have the same entries up to this change. -/
theorem map_entries_congr {first second : Table α} {change : α → β}
    (h : ∀ key, (first.find? key).map change = (second.find? key).map change) :
    (first.entries.map fun entry => (entry.1, change entry.2)) =
      second.entries.map fun entry => (entry.1, change entry.2) := by
  have hchanged : ∀ table : Table α, ∃ changed : Table β,
      changed.entries = table.entries.map fun entry => (entry.1, change entry.2) := by
    intro table
    exact ⟨⟨_, List.pairwise_map.2 table.sorted⟩, rfl⟩
  obtain ⟨first', hfirst⟩ := hchanged first
  obtain ⟨second', hsecond⟩ := hchanged second
  have hsame : first' = second' := by
    apply ext_find?
    intro key
    rw [find?, find?, hfirst, hsecond, lookup_map, lookup_map]
    exact h key
  rw [← hfirst, ← hsecond, hsame]

/-- The table of what a function assigns to some keys. -/
def tabulate (keys : List String) (f : String → Option α) : Table α :=
  keys.foldr (fun key table =>
    match f key with
    | some value => table.insert key value
    | none => table) empty

/-- A table of the values of a function finds them, for the keys it was made of. -/
theorem find?_tabulate (keys : List String) (f : String → Option α) (key : String) :
    (tabulate keys f).find? key = if key ∈ keys then f key else none := by
  induction keys with
  | nil => rfl
  | cons first rest ih =>
      show (match f first with
        | some value => (tabulate rest f).insert first value
        | none => tabulate rest f).find? key = _
      by_cases h : key = first
      · subst h
        rw [if_pos List.mem_cons_self]
        cases hvalue : f key with
        | some value =>
            show ((tabulate rest f).insert key value).find? key = some value
            rw [find?_insert, if_pos rfl]
        | none =>
            show (tabulate rest f).find? key = none
            rw [ih, hvalue]
            exact ite_self _
      · have hmem : key ∈ first :: rest ↔ key ∈ rest := by simp [h]
        simp only [hmem]
        rw [← ih]
        cases f first with
        | some value =>
            show ((tabulate rest f).insert first value).find? key = _
            rw [find?_insert, if_neg h]
        | none => rfl

/-! ## Collecting -/

/-- A first entry puts its value in front of the others of its key. -/
theorem collect_cons (key : String) (value : α) (entries : List (String × α)) :
    collect ((key, value) :: entries) =
      (collect entries).alter key fun values => value :: values.getD [] := rfl

/-- The values collected under a key are those that were entered with it. -/
theorem mem_collect {entries : List (String × α)} {key : String} {value : α} :
    value ∈ ((collect entries).find? key).getD [] ↔ (key, value) ∈ entries := by
  induction entries with
  | nil => simp [collect]
  | cons entry rest ih =>
      obtain ⟨first, new⟩ := entry
      rw [collect_cons, find?_alter, List.mem_cons]
      by_cases h : key = first
      · subst h
        simp [ih]
      · simp [h, ih]

/-- Nothing is collected under a key with which nothing was entered. -/
theorem find?_collect_eq_none {entries : List (String × α)} {key : String} :
    (collect entries).find? key = none ↔ ∀ value, (key, value) ∉ entries := by
  induction entries with
  | nil => simp [collect]
  | cons entry rest ih =>
      obtain ⟨first, new⟩ := entry
      rw [collect_cons, find?_alter]
      by_cases h : key = first
      · subst h
        simp only [if_true, reduceCtorEq, false_iff]
        intro hnone
        exact hnone new List.mem_cons_self
      · simp [h, ih]

end Table
end Concordance
