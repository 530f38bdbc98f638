/-!
# Call counts

A search reports how often it normalized a text, partitioned a query, ran either
pass of an intersection, merged the results of the two passes, and collected
documents. A `Counted` value carries these counts along; `Counted.value` is the
value alone.
-/

namespace Concordance

/-- How often the steps of a search were carried out. -/
structure Calls where
  normalizations : Nat := 0
  partitions : Nat := 0
  firstPasses : Nat := 0
  secondPasses : Nat := 0
  merges : Nat := 0
  collections : Nat := 0
deriving DecidableEq, Repr

namespace Calls

/-- The counts of two parts of a search together. -/
def add (first second : Calls) : Calls :=
  { normalizations := first.normalizations + second.normalizations
    partitions := first.partitions + second.partitions
    firstPasses := first.firstPasses + second.firstPasses
    secondPasses := first.secondPasses + second.secondPasses
    merges := first.merges + second.merges
    collections := first.collections + second.collections }

/-- Calls are added count by count. -/
instance : Add Calls := ⟨add⟩

/-- The counts in a fixed order: normalizations, partitions, first passes, second passes, merges,
collections. -/
def toList (calls : Calls) : List Nat :=
  [calls.normalizations, calls.partitions, calls.firstPasses, calls.secondPasses, calls.merges,
    calls.collections]

end Calls

/-- A value together with the steps that were needed for it. -/
structure Counted (α : Type u) where
  value : α
  calls : Calls := {}
deriving Repr

namespace Counted

/-- Carry out one computation after another, counting the steps of both. -/
protected def bind {α : Type u} {β : Type v} (first : Counted α) (next : α → Counted β) :
    Counted β :=
  let second := next first.value
  ⟨second.value, first.calls + second.calls⟩

/-- Steps that count calls follow one another, and their counts add up. -/
instance : Monad Counted where
  pure value := { value }
  bind := Counted.bind

/-- Count steps that yield nothing. -/
def count (calls : Calls) : Counted Unit :=
  ⟨(), calls⟩

end Counted

end Concordance
