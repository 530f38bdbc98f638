import Concordance.Fusion.CommonTokens

/-!
# Units

A unit is a run of neighbouring tokens that is looked up as one, under its tokens
joined by spaces. Every single token is a unit. Longer runs are units where
common tokens are involved: a run may start at any token and go on while the
tokens after the first are common, and one token further; if the first is common
it may go one further still. No unit has more than three tokens.

`windowEnd` bounds the lengths of the units at the front of a token list. What
is indexed (`mergedUnits`) and what a query may ask for are both derived from it.
-/

namespace Concordance

/-- A run of tokens looked up as one. -/
structure TokenUnit where
  /-- The tokens joined by spaces. -/
  text : String
  /-- The number of tokens. -/
  length : Nat
deriving DecidableEq, Repr

/-- Join tokens by single spaces. -/
def joinTokens (tokens : List String) : String :=
  " ".intercalate tokens

/-- The unit of a run of tokens. -/
def TokenUnit.ofTokens (tokens : List String) : TokenUnit :=
  ⟨joinTokens tokens, tokens.length⟩

namespace CommonTokens

/-- The most tokens of a unit. -/
def windowLength : Nat := 3

/-- One more than the length of the longest unit at the front of the tokens. All shorter runs at
the front are units as well. -/
def windowEnd (common : CommonTokens) (tokens : List String) : Nat :=
  match tokens.take windowLength with
  | [] => 1
  | first :: followers =>
      if common.isEmpty then 2
      else
        min ((followers.takeWhile common.contains).length + 2 +
            (if common.contains first then 1 else 0))
          (followers.length + 2)

/-- The units of more than one token that start in a token list, each with the place of its first
token, counted from `position`. -/
def mergedUnitsFrom (common : CommonTokens) (position : Nat) :
    (tokens : List String) → List (Nat × String)
  | [] => []
  | first :: rest =>
      (List.range' 2 (common.windowEnd (first :: rest) - 2)).map
          (fun length => (position, joinTokens ((first :: rest).take length))) ++
        mergedUnitsFrom common (position + 1) rest

/-- The units of more than one token that start in a token list, each with the place of its first
token. -/
def mergedUnits (common : CommonTokens) (tokens : List String) : List (Nat × String) :=
  if common.isEmpty then [] else common.mergedUnitsFrom 0 tokens

end CommonTokens

end Concordance
