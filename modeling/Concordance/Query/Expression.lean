import Concordance.Query.Query

/-!
# Boolean expressions

What a boolean query text means: terms joined by conjunction and disjunction, or
negated. A term holds the tokens of one word. Without tokens it matches nothing,
and several tokens form a phrase. `toQuery` gives the query that ranks the matches
of an expression.
-/

namespace Concordance

/-- A boolean combination of terms. -/
inductive Expression where
  | term (tokens : List String)
  | both (left right : Expression)
  | either (left right : Expression)
  | negated (inner : Expression)
deriving DecidableEq, Repr, Inhabited

namespace Expression

/-- The text of an expression. -/
def text : Expression → String
  | term tokens => " ".intercalate tokens
  | both left right => "(" ++ left.text ++ " AND " ++ right.text ++ ")"
  | either left right => "(" ++ left.text ++ " OR " ++ right.text ++ ")"
  | negated inner => "(NOT " ++ inner.text ++ ")"

/-- The query of a term. -/
def termQuery : (tokens : List String) → Query
  | [] => .clauses []
  | [token] => .term token
  | tokens => .phrase tokens

/-- The query of an expression. A negation becomes everything except what is negated. -/
def toQuery : Expression → Query
  | term tokens => termQuery tokens
  | both left right => .clauses [(.required, left.toQuery), (.required, right.toQuery)]
  | either left right => .clauses [(.optional, left.toQuery), (.optional, right.toQuery)]
  | negated inner => .clauses [(.required, .all), (.excluded, inner.toQuery)]

/-- The expressions joined by disjunction from left to right, if there are any. -/
def eitherOf : List Expression → Option Expression
  | [] => none
  | first :: rest => some (rest.foldl either first)

end Expression

end Concordance
