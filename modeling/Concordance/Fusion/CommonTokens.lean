import Concordance.Record.Reader
import Concordance.Record.Writer
import Concordance.Table

/-!
# Common tokens

The tokens whose neighbourhoods are indexed as units of their own. They are
listed by the user, or chosen as the most frequent tokens of a sample. Their file
holds their number and then the tokens in ascending order; a file that ends early
stands for the tokens that are complete.
-/

namespace Concordance

/-- How the common tokens of an index are chosen. -/
inductive CommonChoice where
  /-- There are none. -/
  | none
  /-- Exactly these. -/
  | list (tokens : List String)
  /-- The most frequent ones, this many. -/
  | most (count : Nat)
  /-- The most frequent ones, this fraction of all tokens. -/
  | fraction (part : Float)

/-- By default there are no common tokens. -/
instance : Inhabited CommonChoice := ⟨.none⟩

/-- A set of common tokens. -/
structure CommonTokens where
  table : Table Unit := {}

namespace CommonTokens

/-- The empty set. -/
def empty : CommonTokens := {}

/-- By default there are no common tokens. -/
instance : Inhabited CommonTokens := ⟨empty⟩

/-- Whether a token is common. -/
def contains (common : CommonTokens) (token : String) : Bool :=
  common.table.contains token

/-- Whether no token is common. -/
def isEmpty (common : CommonTokens) : Bool :=
  common.table.isEmpty

/-- The number of common tokens. -/
def size (common : CommonTokens) : Nat :=
  common.table.size

/-- The common tokens in ascending order. -/
def toList (common : CommonTokens) : List String :=
  common.table.keys

/-- Add a token. -/
def insert (common : CommonTokens) (token : String) : CommonTokens :=
  ⟨common.table.insert token ()⟩

/-- The set of these tokens. -/
def ofList (tokens : List String) : CommonTokens :=
  tokens.foldl insert empty

/-- Whether an entry of a frequency table comes before another: the more frequent first, and of
two equally frequent ones the lesser token. -/
def precedes (first second : String × Nat) : Bool :=
  first.2 > second.2 || (first.2 == second.2 && first.1 ≤ second.1)

/-- The most frequent tokens of a table, `count` of them. -/
def mostFrequent (frequencies : Table Nat) (count : Nat) : List String :=
  ((frequencies.entries.mergeSort precedes).take count).map (·.1)

/-- How many of `total` tokens make up a fraction, which is first brought between zero and one. -/
def portion (total : Nat) (part : Float) : Nat :=
  let part := if part < 0.0 then 0.0 else if part > 1.0 then 1.0 else part
  (total.toFloat * part).toUInt64.toNat

/-- Choose common tokens, given how often each token of a sample occurs. -/
def select (choice : CommonChoice) (frequencies : Table Nat) : CommonTokens :=
  match choice with
  | .none => empty
  | .list tokens => ofList tokens
  | .most count => ofList (mostFrequent frequencies count)
  | .fraction part => ofList (mostFrequent frequencies (portion frequencies.size part))

/-- The file of the set. -/
def toBytes (common : CommonTokens) : Except Failure Bytes := do
  let writer ← Writer.put {} (.int32 common.size.toUInt32.toInt32)
  let writer ← writer.putAll (common.toList.map Record.text)
  pure writer.toBytes

/-- Add at most `count` tokens to a set, until the input ends. -/
def takeTokens (common : CommonTokens) (reader : Reader) :
    (count : Nat) → Except Failure CommonTokens
  | 0 => .ok common
  | count + 1 =>
      match reader.takeText with
      | .ok (token, reader) => takeTokens (common.insert token) reader count
      | .error failure => if failure.isTruncation then .ok common else .error failure

/-- The set of a file, of which as much is read as is there. A missing file is an empty set. -/
def ofFile : Option Bytes → Except Failure CommonTokens
  | none => .ok empty
  | some bytes =>
      match Reader.takeInt32 ⟨bytes, 0, {}⟩ with
      | .ok (count, reader) => takeTokens empty reader count.toInt.toNat
      | .error failure => if failure.isTruncation then .ok empty else .error failure

end CommonTokens

end Concordance
