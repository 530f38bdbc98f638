import Concordance.Table

/-!
# Vocabularies

The tokens of an index in ascending order, in which the tokens with a common
beginning are looked up.
-/

namespace Concordance

/-- A set of tokens. -/
structure Vocabulary where
  table : Table Unit := {}

namespace Vocabulary

/-- The vocabulary of these tokens, in any order. -/
def ofList (tokens : List String) : Vocabulary :=
  ⟨tokens.foldl (fun table token => table.insert token ()) Table.empty⟩

/-- The number of tokens. -/
def size (vocabulary : Vocabulary) : Nat :=
  vocabulary.table.size

/-- Whether a token begins with a stem. -/
def startsWith (stem token : String) : Bool :=
  stem.toList.isPrefixOf token.toList

/-- The tokens that begin with a stem, ascending. -/
def completions (vocabulary : Vocabulary) (stem : String) : List String :=
  vocabulary.table.keys.filter (startsWith stem)

end Vocabulary

end Concordance
