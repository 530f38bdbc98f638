import Concordance.Fusion.Units

/-!
# Least-cost partitions

A query looks up few words if it is cut into units whose posting lists are
short. `minimize` finds, from the last token back to the first, the cheapest way
of cutting the tokens from there on. A unit that is not in the index costs
nothing, and of two cuts of the same cost the one with the longer first unit
wins. What a unit costs is looked up once, wherever it occurs.
-/

namespace Concordance

/-- A way of cutting tokens into units, with its cost. -/
structure Partition where
  cost : Nat := 0
  units : List TokenUnit := []
deriving DecidableEq, Repr

/-- No cost exceeds this one. -/
def Partition.costLimit : Nat := UInt64.size - 1

/-- Put a unit of a certain cost in front. -/
def Partition.prepend (unit : TokenUnit) (cost : Nat) (later : Partition) : Partition :=
  ⟨min (cost + later.cost) costLimit, unit :: later.units⟩

/-- The cheaper one of the best partition so far and another one, which has to cost less. -/
def Partition.better (best : Option Partition) (found : Partition) : Option Partition :=
  match best with
  | none => some found
  | some best => if found.cost < best.cost then some found else some best

namespace CommonTokens

/-- What a unit costs, with what is known of costs then. It is looked up unless it is known. -/
def costOf (cost : String → Except Failure (Option Nat)) (known : Table Nat) (unit : String) :
    Except Failure (Nat × Table Nat) :=
  match known.find? unit with
  | some unitCost => .ok (unitCost, known)
  | none => do
      let unitCost := (← cost unit).getD 0
      pure (unitCost, known.insert unit unitCost)

/-- Keep the cheaper of the best partition so far and the one that starts with the first `length`
tokens. The partitions of the tokens from each later token on are given in `later`. -/
def consider (cost : String → Except Failure (Option Nat)) (tokens : List String)
    (later : List Partition) (state : Option Partition × Table Nat) (length : Nat) :
    Except Failure (Option Partition × Table Nat) := do
  let unit := TokenUnit.ofTokens (tokens.take length)
  let (unitCost, known) ← costOf cost state.2 unit.text
  pure (Partition.better state.1 ((later.getD (length - 1) {}).prepend unit unitCost), known)

/-- The lengths of the units at the front of the tokens, from the longest to the shortest. -/
def unitLengths (common : CommonTokens) (tokens : List String) : List Nat :=
  (List.range' 1 (common.windowEnd tokens - 1)).reverse

/-- The cheapest partitions of the tokens from each token on, and of no tokens at the end, with the
costs that were looked up. `position` is the place of the first of these tokens in the query. -/
def cheapest (common : CommonTokens) (cost : String → Except Failure (Option Nat))
    (position : Nat) : (tokens : List String) → Except Failure (List Partition × Table Nat)
  | [] => .ok ([{}], .empty)
  | first :: rest => do
      let (later, known) ← cheapest common cost (position + 1) rest
      let (best, known) ← (common.unitLengths (first :: rest)).foldlM
        (consider cost (first :: rest) later) (none, known)
      match best with
      | some best => pure (best :: later, known)
      | none => throw (.noUnitAt position)

/-- Cut query tokens into units of least total cost. `cost` tells the cost of a unit, `none` if it
is not in the index. -/
def minimize (common : CommonTokens) (cost : String → Except Failure (Option Nat))
    (tokens : List String) : Except Failure (List TokenUnit) :=
  if common.isEmpty then .ok (tokens.map fun token => TokenUnit.ofTokens [token])
  else do
    let (partitions, _) ← common.cheapest cost 0 tokens
    pure (partitions.headD {}).units

end CommonTokens

end Concordance
