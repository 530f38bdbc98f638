import Concordance.Ranking.Score
import Concordance.Ranking.TopDocuments
import Concordance.Searching.Phrase

/-!
# Ranked search

A query is turned into a selection of documents, whose scorer visits them one by
one with their scores. Parts of a query that cannot match anything are left out,
and with a required one the whole query matches nothing.
-/

namespace Concordance

namespace Selection

/-- The documents of all of several selections. -/
def bothOf : List Selection → Option Selection
  | [] => none
  | [part] => some part
  | parts => some (.both parts)

/-- The documents of any of several selections. -/
def anyOf : List Selection → Option Selection
  | [] => none
  | [part] => some part
  | parts => some (.any parts)

/-- The selections of the clauses of one kind. -/
def ofKind (kind : Occurrence) (parts : List (Occurrence × Selection)) : List Selection :=
  (parts.filter fun part => part.1 = kind).map (·.2)

/-- The documents that clauses select. There is no selection if nothing is asked for. -/
def ofClauses (parts : List (Occurrence × Selection)) : Option Selection := do
  let required := bothOf (ofKind .required parts)
  let optional := anyOf (ofKind .optional parts)
  let wanted ←
    match required, optional with
    | some required, some optional => some (preferring required optional)
    | some required, none => some required
    | none, optional => optional
  match anyOf (ofKind .excluded parts) with
  | some excluded => some (without wanted excluded)
  | none => some wanted

end Selection

namespace Searcher

/-- The documents of a posting list, weighed by their number. There is no selection if there are
none. -/
def weigh (searcher : Searcher) (words : Postings) : Option Selection :=
  let frequency := words.documentCount
  if frequency = 0 then none
  else
    some <| .term
      { words
        weight := Bm25.ofFrequency searcher.statistics.documents frequency.toUInt32
          searcher.statistics.averageLength
        lengths := searcher.lengths.get }

mutual

/-- The documents that a query asks for. There is no selection if nothing can match. -/
def selection (searcher : Searcher) : Query → Searching (Option Selection)
  | .term token => return (searcher.postings token).bind searcher.weigh
  | .phrase tokens => do
      let words ← searcher.phrasePostings tokens
      return words.bind searcher.weigh
  | .clauses list => do
      let parts ← clauseSelections searcher list
      return parts.bind Selection.ofClauses
  | .all => return some (.all searcher.statistics.documents)

/-- The documents that clauses ask for, unless a required clause cannot match. -/
def clauseSelections (searcher : Searcher) :
    List (Occurrence × Query) → Searching (Option (List (Occurrence × Selection)))
  | [] => return some []
  | (occurrence, query) :: rest => do
      match ← selection searcher query with
      | some part => do
          let parts ← clauseSelections searcher rest
          return parts.map ((occurrence, part) :: ·)
      | none =>
          if occurrence = .required then return none else clauseSelections searcher rest

end

/-- The documents that match a query with their scores, in ascending order. -/
def hits (searcher : Searcher) (query : Query) : Searching (List Hit) := do
  match ← searcher.selection query with
  | some selection => return selection.scorer.hits
  | none => return []

/-- The best documents of a query, best first. -/
def searchQuery (searcher : Searcher) (query : Query) (limit : Nat) : Searching (List Hit) := do
  let hits ← searcher.hits query
  return (hits.foldl TopDocuments.collect { limit }).hits

/-- The number of documents that match a query. -/
def count (searcher : Searcher) (query : Query) : Searching Nat := do
  let hits ← searcher.hits query
  return hits.length

/-- The query for any of the tokens of a text. -/
def anyTokenQuery (tokens : List String) : Query :=
  .clauses ((Vocabulary.ofList tokens).table.keys.map fun token => (.optional, .term token))

/-- The best documents with any of the tokens of a text. -/
def searchTokens (searcher : Searcher) (text : String) (limit : Nat) : Searching (List Hit) := do
  let tokens ← searcher.settings.tokenizer.tokens text
  searcher.searchQuery (anyTokenQuery tokens) limit

/-- The best documents that satisfy a query text. -/
def searchRanked (searcher : Searcher) (text : String) (limit : Nat) : Searching (List Hit) := do
  match ← searcher.parser.parse text with
  | some expression => searcher.searchQuery expression.toQuery limit
  | none => return []

end Searcher

end Concordance
