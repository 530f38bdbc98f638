import Concordance.Bytes
import Concordance.Decimal.Shortest
import Concordance.Failure
import Concordance.Fusion.CommonTokens
import Concordance.Fusion.Partition
import Concordance.Fusion.Units
import Concordance.Indexing.Batch
import Concordance.Indexing.BatchSource
import Concordance.Indexing.Commit
import Concordance.Indexing.Indexer
import Concordance.Indexing.Merge
import Concordance.Indexing.Settings
import Concordance.Indexing.SettingsFormat
import Concordance.Indexing.Workspace
import Concordance.Intersection.Block
import Concordance.Intersection.Gallop
import Concordance.Intersection.Intersect
import Concordance.Intersection.Lanes
import Concordance.Intersection.Offset
import Concordance.Intersection.Scalar
import Concordance.Json.Fields
import Concordance.Json.Parser
import Concordance.Json.Value
import Concordance.Pattern.CharacterSet
import Concordance.Pattern.Parser
import Concordance.Pattern.Pattern
import Concordance.Posting.Boundary
import Concordance.Posting.Buffer
import Concordance.Posting.DocumentSet
import Concordance.Posting.Postings
import Concordance.Posting.Word
import Concordance.Proofs.Bytes
import Concordance.Proofs.Fusion.CommonTokens
import Concordance.Proofs.Fusion.Partition
import Concordance.Proofs.Fusion.Units
import Concordance.Proofs.Indexing.Accounts
import Concordance.Proofs.Indexing.Batch
import Concordance.Proofs.Indexing.BatchSource
import Concordance.Proofs.Indexing.Calls
import Concordance.Proofs.Indexing.Commit
import Concordance.Proofs.Indexing.Layout
import Concordance.Proofs.Indexing.Merge
import Concordance.Proofs.Indexing.MergeBatches
import Concordance.Proofs.Indexing.Run
import Concordance.Proofs.Indexing.Workspace
import Concordance.Proofs.Intersection.Block
import Concordance.Proofs.Intersection.Gallop
import Concordance.Proofs.Intersection.Lanes
import Concordance.Proofs.Intersection.Meet
import Concordance.Proofs.Intersection.Offset
import Concordance.Proofs.Intersection.Scalar
import Concordance.Proofs.Intersection.Shift
import Concordance.Proofs.Json.Parser
import Concordance.Proofs.Ordered
import Concordance.Proofs.Posting.Boundary
import Concordance.Proofs.Posting.Buffer
import Concordance.Proofs.Posting.Canonical
import Concordance.Proofs.Posting.Counts
import Concordance.Proofs.Posting.Documents
import Concordance.Proofs.Posting.Normalize
import Concordance.Proofs.Posting.Positions
import Concordance.Proofs.Posting.Pushed
import Concordance.Proofs.Posting.Word
import Concordance.Proofs.Query.Grammar
import Concordance.Proofs.Query.Printing
import Concordance.Proofs.Ranking.Conjunction
import Concordance.Proofs.Ranking.Cursor
import Concordance.Proofs.Ranking.Disjunction
import Concordance.Proofs.Ranking.Drain
import Concordance.Proofs.Ranking.Exclusion
import Concordance.Proofs.Ranking.Roles
import Concordance.Proofs.Ranking.Selection
import Concordance.Proofs.Ranking.Term
import Concordance.Proofs.Ranking.TopDocuments
import Concordance.Proofs.Ranking.Turns
import Concordance.Proofs.Record.Reading
import Concordance.Proofs.Record.Script
import Concordance.Proofs.Record.Varint
import Concordance.Proofs.Searching.Chain
import Concordance.Proofs.Searching.Clauses
import Concordance.Proofs.Searching.Complement
import Concordance.Proofs.Searching.Losses
import Concordance.Proofs.Searching.Phrase
import Concordance.Proofs.Searching.Places
import Concordance.Proofs.Searching.Postings
import Concordance.Proofs.Searching.Ranking
import Concordance.Proofs.Searching.Recall
import Concordance.Proofs.Searching.Substring
import Concordance.Proofs.Storage.Disk
import Concordance.Proofs.Storage.IndexStatistics
import Concordance.Proofs.Storage.TokenDirectory
import Concordance.Proofs.Success
import Concordance.Proofs.Table
import Concordance.Proofs.Text.ByteOrder
import Concordance.Proofs.Tokenizer.Grams
import Concordance.Query.Expression
import Concordance.Query.Lexeme
import Concordance.Query.Parser
import Concordance.Query.Query
import Concordance.Query.Vocabulary
import Concordance.Ranking.Bm25
import Concordance.Ranking.Score
import Concordance.Ranking.Scorer
import Concordance.Ranking.ScorerMove
import Concordance.Ranking.Selection
import Concordance.Ranking.TermScorer
import Concordance.Ranking.TopDocuments
import Concordance.Record.Checksum
import Concordance.Record.Reader
import Concordance.Record.Record
import Concordance.Record.Varint
import Concordance.Record.Writer
import Concordance.Searching.Evaluation
import Concordance.Searching.Phrase
import Concordance.Searching.Ranking
import Concordance.Searching.Searcher
import Concordance.Searching.Settings
import Concordance.Searching.SettingsFormat
import Concordance.Storage.Appender
import Concordance.Storage.Disk
import Concordance.Storage.DocumentLengths
import Concordance.Storage.DocumentStore
import Concordance.Storage.DocumentWriter
import Concordance.Storage.IndexFile
import Concordance.Storage.IndexStatistics
import Concordance.Storage.PostingsFile
import Concordance.Storage.TokenDirectory
import Concordance.Table
import Concordance.Tally
import Concordance.Text.Case.Cased
import Concordance.Text.Case.Ignorable
import Concordance.Text.Case.LowerTable
import Concordance.Text.Case.Lowercase
import Concordance.Text.CodeRanges
import Concordance.Text.DecimalDigit
import Concordance.Text.Quoted
import Concordance.Text.Unprintable
import Concordance.Text.Whitespace
import Concordance.Text.WordBreak.Class
import Concordance.Text.WordBreak.Extenders
import Concordance.Text.WordBreak.Letters
import Concordance.Text.WordBreak.Pictographic
import Concordance.Text.WordBreak.Segments
import Concordance.Text.WordCharacter
import Concordance.Tokenizer.Grams
import Concordance.Tokenizer.Matches
import Concordance.Tokenizer.Tokenizer
import Concordance.Tokenizer.Words
import Concordance.Proofs.Record.Lengths
import Concordance.Proofs.Storage.Truncation
import Concordance.Proofs.Record.Checksum
import Concordance.Proofs.Indexing.Damage
import Concordance.Proofs.Storage.DocumentLengths
import Concordance.Proofs.Searching.Totals
import Concordance.Proofs.Indexing.Pending
import Concordance.Proofs.Intersection.Crossing
import Concordance.Proofs.Storage.Appender
import Concordance.Proofs.Storage.DocumentStore
import Concordance.Proofs.Query.Completion
import Concordance.Proofs.Searching.Completion
import Concordance.Proofs.Intersection.Strides
