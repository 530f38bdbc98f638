import Concordance.Text.Whitespace

/-!
# Lexemes of query texts

A query text consists of parentheses and of words separated by white space. The
words `and`, `or` and `not`, in any mixture of upper and lower case, are
operators.
-/

namespace Concordance

/-- A part of a query text. -/
inductive Lexeme where
  | opening
  | closing
  | conjunction
  | disjunction
  | negation
  | word (text : String)
deriving DecidableEq, Repr

namespace Lexeme

/-- The lexeme as it is shown in messages. -/
def text : Lexeme → String
  | opening => "("
  | closing => ")"
  | conjunction => "AND"
  | disjunction => "OR"
  | negation => "NOT"
  | word text => text

/-- The lexeme of a run of characters that holds neither white space nor parentheses. -/
def ofRun (run : List Char) : Lexeme :=
  let lower := run.map Char.toLower
  if lower = ['a', 'n', 'd'] then conjunction
  else if lower = ['o', 'r'] then disjunction
  else if lower = ['n', 'o', 't'] then negation
  else word (String.ofList run)

/-- The lexeme of a run whose characters are held last first, if there are any. -/
def ofReversed (run : List Char) : List Lexeme :=
  if run.isEmpty then [] else [ofRun run.reverse]

/-- The lexemes of characters that follow the characters `run` of a word, held last first. -/
def lexFrom (run : List Char) : List Char → List Lexeme
  | [] => ofReversed run
  | c :: rest =>
      if c = '(' then ofReversed run ++ opening :: lexFrom [] rest
      else if c = ')' then ofReversed run ++ closing :: lexFrom [] rest
      else if isWhitespace c then ofReversed run ++ lexFrom [] rest
      else lexFrom (c :: run) rest

/-- The lexemes of a query text. -/
def lex (text : String) : List Lexeme :=
  lexFrom [] text.toList

end Lexeme

end Concordance
