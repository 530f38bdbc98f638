/-!
# Failures

Every operation of the library that can fail does so with a `Failure`, which
names the cause. The wording shown to a user is decided in one place,
`Failure.message`, and the broad class a cause belongs to in another,
`Failure.category`. A `defect` is a violated precondition of an operation, such
as an index past the end of a buffer, and has no wording of its own.
-/

namespace Concordance

/-- The phases in the life of an index builder. It accepts documents, then merges what it has
collected, and is closed once the merge is complete. -/
inductive Phase where
  | accepting
  | merging
  | closed
deriving DecidableEq, Repr, Inhabited

/-- The name of a phase, as shown in messages. -/
def Phase.name : Phase → String
  | .accepting => "Accepting"
  | .merging => "Merging"
  | .closed => "Closed"

/-- The broad classes of failures. -/
inductive Failure.Category where
  | input
  | index
  | query
  | parse
  | storage
  | analysis
  | argument
  | operation
  | json
  | other
  | defect
deriving DecidableEq, Repr

/-- The words that open the message of a failure of this class. -/
def Failure.Category.opening : Failure.Category → String
  | .input => "I/O error: "
  | .index => "Index error: "
  | .query => "Query error: "
  | .parse => "Parse error: "
  | .storage => "Storage error: "
  | .analysis => "Analysis error: "
  | .argument => "Invalid argument: "
  | .operation => "Invalid operation: "
  | .json => "JSON error: "
  | .other => "Error: "
  | .defect => "Defect: "

/-- The causes of failure. -/
inductive Failure where
  /-- The input ended inside a value. -/
  | endOfInput
  /-- There is no file or directory of the name asked for. -/
  | notFound
  /-- The disk refused an operation. -/
  | diskFault
  /-- The directory of an index could not be created. -/
  | directoryNotCreated (directory : String)
  /-- The directory of an index is missing. -/
  | directoryMissing (directory : String)
  /-- No unit of a query can start at this token. -/
  | noUnitAt (token : Nat)
  /-- A lexeme stands after a complete query. -/
  | lexemeAfterQuery (lexeme : String)
  /-- A query ends where a term was due. -/
  | endOfQuery
  /-- A parenthesis is never closed. -/
  | unclosedParenthesis
  /-- A lexeme stands where a term was due. -/
  | termExpected (lexeme : String)
  /-- A length is written in more bytes than its width allows. -/
  | lengthOverflow
  /-- A length lacks its last byte. -/
  | lengthIncomplete
  /-- A text has more bytes than a length can state. -/
  | textTooLong
  /-- A table has more entries than its count can state. -/
  | tooManyTokens
  /-- Bytes that should be text are not UTF-8. -/
  | invalidText
  /-- The bytes of a stored document are not UTF-8. -/
  | invalidDocument (document : UInt32)
  /-- The place of a stored document lies outside the stored contents. -/
  | documentOutOfStore (document : UInt32)
  /-- The bytes of a batch do not have the checksum written after them. -/
  | checksumMismatch (path : String)
  /-- A pattern does not follow the rules of patterns. -/
  | invalidPattern
  /-- The grams of a tokenizer must hold at least one character. -/
  | emptyGram
  /-- The builder no longer takes documents. -/
  | notAccepting (phase : Phase)
  /-- A JSON text is malformed or does not describe the value asked for. -/
  | malformedJson
  /-- An index is at or past the end. -/
  | indexOutOfRange
  /-- Memory outside an allocation, or never written, would be touched. -/
  | outsideAllocation
  /-- Data cannot be aligned to multiples of zero. -/
  | zeroAlignment
  /-- A failure described by its reporter. -/
  | reported (category : Failure.Category) (text : String)
deriving DecidableEq, Repr

namespace Failure

/-- The class to which a cause belongs. -/
def category : Failure → Category
  | endOfInput | notFound | diskFault => .input
  | directoryNotCreated _ | directoryMissing _ => .index
  | noUnitAt _ => .query
  | lexemeAfterQuery _ | endOfQuery | unclosedParenthesis | termExpected _ => .parse
  | lengthOverflow | lengthIncomplete | textTooLong | tooManyTokens | invalidText
  | invalidDocument _ | documentOutOfStore _ | checksumMismatch _ => .storage
  | invalidPattern => .analysis
  | emptyGram => .argument
  | notAccepting _ => .operation
  | malformedJson => .json
  | indexOutOfRange | outsideAllocation | zeroAlignment => .defect
  | reported category _ => category

/-- What happened, without the class. -/
def description : Failure → String
  | endOfInput => "unexpected end of input"
  | notFound => "no such file or directory"
  | diskFault => "the disk refused the operation"
  | directoryNotCreated directory => "Failed to create index directory " ++ directory
  | directoryMissing directory => "Index directory " ++ directory ++ " does not exist"
  | noUnitAt token => "No unit can start at token " ++ toString token
  | lexemeAfterQuery lexeme => "Unexpected '" ++ lexeme ++ "' after end of query"
  | endOfQuery => "Unexpected end of query"
  | unclosedParenthesis => "Missing closing parenthesis"
  | termExpected lexeme => "Unexpected '" ++ lexeme ++ "', expected a term"
  | lengthOverflow => "VarInt overflow"
  | lengthIncomplete => "Incomplete VarInt"
  | textTooLong => "String too long to encode"
  | tooManyTokens => "Too many tokens for the directory"
  | invalidText => "Invalid UTF-8"
  | invalidDocument document => "Invalid UTF-8 in document " ++ toString document
  | documentOutOfStore document =>
      "Document " ++ toString document ++ " points past the end of the store"
  | checksumMismatch path => "Checksum mismatch in batch file " ++ path
  | invalidPattern => "Invalid regex pattern"
  | emptyGram => "n-gram size must be greater than 0"
  | notAccepting phase =>
      "Indexer is " ++ phase.name ++ ", no more documents can be added"
  | malformedJson => "malformed value"
  | indexOutOfRange => "index out of range"
  | outsideAllocation => "access outside the allocation"
  | zeroAlignment => "alignment of zero"
  | reported _ text => text

/-- The message shown for a failure: its class, then what happened. -/
def message (failure : Failure) : String :=
  failure.category.opening ++ failure.description

end Failure

end Concordance
