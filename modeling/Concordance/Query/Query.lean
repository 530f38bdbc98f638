/-!
# Queries

A query asks for the documents with a token, with a phrase, or that satisfy a
list of clauses, or for all documents. A clause is required, optional or excluded;
optional clauses only matter for the score once something is required.
-/

namespace Concordance

/-- How a clause takes part in a query. -/
inductive Occurrence where
  | required
  | optional
  | excluded
deriving DecidableEq, Repr

/-- A question about documents. -/
inductive Query where
  | term (token : String)
  | phrase (tokens : List String)
  | clauses (list : List (Occurrence × Query))
  | all
deriving Repr, Inhabited

namespace Query

/-- The sign in front of a clause. -/
def sign : Occurrence → String
  | .required => "+"
  | .optional => ""
  | .excluded => "-"

mutual

/-- The text of a query. -/
def text : Query → String
  | term token => token
  | phrase tokens => "\"" ++ " ".intercalate tokens ++ "\""
  | clauses list => "(" ++ " ".intercalate (clauseTexts list) ++ ")"
  | all => "*:*"

/-- The texts of clauses. -/
def clauseTexts : List (Occurrence × Query) → List String
  | [] => []
  | (occurrence, query) :: rest => (sign occurrence ++ query.text) :: clauseTexts rest

end

end Query

end Concordance
