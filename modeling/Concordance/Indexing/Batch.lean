import Concordance.Fusion.Units
import Concordance.Posting.Postings
import Concordance.Record.Writer

/-!
# Batches

While documents are added, their posting lists are collected in a batch in memory.
A batch is written to a file of its own: the number of units, then for each unit,
in ascending order, its text, the number of its words and the words, and at the end
a checksum. If documents came out of order, the lists are normalized first.
-/

namespace Concordance

/-- The posting lists of the documents added since the last batch was written. -/
structure Batch where
  postings : Table Postings := {}
  /-- The number of documents added. -/
  documents : Nat := 0
  /-- The document added last. -/
  last : Option DocumentId := none
  /-- Whether documents were added in ascending order. -/
  inOrder : Bool := true
deriving Inhabited

namespace Batch

/-- Append the positions of a unit in a document to its list. -/
def push (document : DocumentId) (postings : Table Postings) (unit : String)
    (positions : List Position) : Table Postings :=
  postings.alter unit fun words => Postings.push (words.getD []) document positions

/-- Append the positions of all units of a document to their lists. -/
def pushAll (postings : Table Postings) (document : DocumentId) (units : List (String × Position)) :
    Table Postings :=
  (Table.collect units).entries.foldl
    (fun postings (unit, positions) => push document postings unit positions) postings

/-- The tokens of a document with their positions. -/
def tokenPositions (tokens : List String) : List (String × Position) :=
  tokens.zipIdx.map fun (token, position) => (token, position.toUInt32)

/-- The longer units of a document with their positions. -/
def unitPositions (common : CommonTokens) (tokens : List String) : List (String × Position) :=
  (common.mergedUnits tokens).map fun (position, unit) => (unit, position.toUInt32)

/-- Whether a document comes after the one added last. -/
def isNext (batch : Batch) (document : DocumentId) : Bool :=
  match batch.last with
  | some last => last < document
  | none => true

/-- Add the tokens of a document, and the longer units among them. -/
def addDocument (batch : Batch) (common : CommonTokens) (document : DocumentId)
    (tokens : List String) : Batch :=
  let postings := pushAll batch.postings document (tokenPositions tokens)
  { postings := pushAll postings document (unitPositions common tokens)
    documents := batch.documents + 1
    last := some document
    inOrder := batch.inOrder && batch.isNext document }

/-- The units with their lists as they are written, in ascending order. -/
def lists (batch : Batch) : List (String × Postings) :=
  if batch.inOrder then batch.postings.entries
  else batch.postings.entries.map fun (unit, words) => (unit, words.normalize)

/-- The records of a unit in a file. -/
def listRecords (unit : String) (words : Postings) : List Record :=
  [.text unit, .uint32 words.length.toUInt32, .words words]

/-- The file of a batch. -/
def toBytes (batch : Batch) : Except Failure Bytes := do
  let writer ← Writer.put {} (.uint32 batch.lists.length.toUInt32)
  let writer ← batch.lists.foldlM
    (fun writer (unit, words) => writer.putAll (listRecords unit words)) writer
  pure writer.sealed

end Batch

end Concordance
