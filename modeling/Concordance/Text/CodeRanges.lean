/-!
# Ranges of code points

Properties of characters are given by tables of ranges of code points. A table is
in ascending order and its ranges do not overlap, so the range of a character is
found by halving the table.
-/

namespace Concordance

/-- Ranges of code points, each given by its first and its last one. -/
abbrev CodeRanges := Array (Nat × Nat)

namespace CodeRanges

/-- The first entry from `low` on that does not end before a code point. Entries from `high` on do
not end before it. -/
def lowerBound (last : α → Nat) (table : Array α) (code low high : Nat)
    (hhigh : high ≤ table.size) : Option α :=
  if hless : low < high then
    have : (low + high) / 2 < table.size := by omega
    if last table[(low + high) / 2] < code then
      lowerBound last table code ((low + high) / 2 + 1) high hhigh
    else lowerBound last table code low ((low + high) / 2) (by omega)
  else table[low]?
termination_by high - low

/-- The entry of a table whose range holds a code point. -/
def find? (first last : α → Nat) (table : Array α) (code : Nat) : Option α :=
  (lowerBound last table code 0 table.size (Nat.le_refl _)).filter fun entry => first entry ≤ code

/-- Whether a character lies in one of the ranges. -/
def holds (ranges : CodeRanges) (c : Char) : Bool :=
  (find? (·.1) (·.2) ranges c.toNat).isSome

end CodeRanges

end Concordance
