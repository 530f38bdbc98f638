import Concordance.Query.Expression
import Concordance.Query.Lexeme
import Concordance.Query.Vocabulary
import Concordance.Tokenizer.Tokenizer

/-!
# Reading boolean queries

A query is a disjunction of conjunctions of terms, where a term may be negated and
an expression in parentheses may stand for a term. Terms side by side are joined
by conjunction; conjunction binds closer than disjunction, and negation closest.
Chains are joined from left to right.

The lexemes are read one at a time. For every parenthesis that is still open, and
for the query itself, a `Level` holds what has been read so far. An operand is due
at the start of a level and after an operator; after an operand, another one is
joined by conjunction.
-/

namespace Concordance

namespace QueryParser

/-- What has been read between two parentheses. -/
structure Level where
  /-- The alternatives before the last sign of disjunction. -/
  alternatives : Option Expression := none
  /-- The operands since then, joined by conjunction. -/
  conjunction : Option Expression := none
  /-- The signs of negation in front of the next operand. -/
  negations : Nat := 0
deriving DecidableEq, Repr

namespace Level

/-- Join an expression to what stands before it. -/
def join (combine : Expression → Expression → Expression) (before : Option Expression)
    (operand : Expression) : Expression :=
  match before with
  | some before => combine before operand
  | none => operand

/-- Negate an expression `count` times. -/
def negate : (count : Nat) → Expression → Expression
  | 0, operand => operand
  | count + 1, operand => .negated (negate count operand)

/-- Take in an operand. -/
def addOperand (level : Level) (operand : Expression) : Level :=
  { level with
    conjunction := some (join .both level.conjunction (negate level.negations operand))
    negations := 0 }

/-- The expression that was read, once an operand has been. -/
def result? (level : Level) : Option Expression :=
  level.conjunction.map (join .either level.alternatives)

/-- Begin another alternative. -/
def beginAlternative (level : Level) : Level :=
  { alternatives := level.result? }

end Level

/-- How far a query has been read. -/
structure Progress where
  /-- The innermost open level. -/
  level : Level := {}
  /-- The levels around it, from the inside out. -/
  outer : List Level := []
  /-- Whether an operand is due. -/
  awaiting : Bool := true
deriving DecidableEq, Repr

/-- Take in an operand. -/
def Progress.addOperand (progress : Progress) (operand : Expression) : Progress :=
  { progress with level := progress.level.addOperand operand, awaiting := false }

/-- Read a lexeme where an operand begins. -/
def readOperand (leaf : String → Except Failure Expression) (progress : Progress) :
    Lexeme → Except Failure Progress
  | .negation =>
      .ok
        { progress with
          level := { progress.level with negations := progress.level.negations + 1 }
          awaiting := true }
  | .opening => .ok { level := {}, outer := progress.level :: progress.outer, awaiting := true }
  | .word text => do
      let operand ← leaf text
      pure (progress.addOperand operand)
  | lexeme => .error (.termExpected lexeme.text)

/-- Read a lexeme behind an operand. -/
def readOperator (leaf : String → Except Failure Expression) (progress : Progress) :
    Lexeme → Except Failure Progress
  | .conjunction => .ok { progress with awaiting := true }
  | .disjunction =>
      .ok { progress with level := progress.level.beginAlternative, awaiting := true }
  | .closing =>
      match progress.outer, progress.level.result? with
      | level :: outer, some operand =>
          .ok (Progress.addOperand { level, outer, awaiting := true } operand)
      | _, _ => .error (.lexemeAfterQuery Lexeme.closing.text)
  | lexeme => readOperand leaf progress lexeme

/-- Read one lexeme. -/
def read (leaf : String → Except Failure Expression) (progress : Progress) (lexeme : Lexeme) :
    Except Failure Progress :=
  if progress.awaiting then readOperand leaf progress lexeme
  else readOperator leaf progress lexeme

/-- The expression of a query that has been read to its end. -/
def finish (progress : Progress) : Except Failure Expression :=
  if progress.awaiting then .error .endOfQuery
  else
    match progress.outer, progress.level.result? with
    | [], some result => .ok result
    | _, _ => .error .unclosedParenthesis

/-- The expression of lexemes, whose words mean what `leaf` says. -/
def parseLexemes (leaf : String → Except Failure Expression) (lexemes : List Lexeme) :
    Except Failure Expression := do
  let progress ← lexemes.foldlM (read leaf) {}
  finish progress

end QueryParser

/-- What is needed to read boolean queries. -/
structure QueryParser where
  tokenizer : Tokenizer
  /-- The tokens to which a word that ends in a star may be completed. -/
  vocabulary : Option Vocabulary := none

namespace QueryParser

/-- The word in front of a star at its end. -/
def stem? (word : String) : Option String :=
  match word.toList.reverse with
  | '*' :: stem => some (String.ofList stem.reverse)
  | _ => none

/-- The expression of a word: its tokens, or, for a word that ends in a star, any token that begins
with the single token in front of the star. -/
def word (parser : QueryParser) (text : String) : Except Failure Expression :=
  match stem? text, parser.vocabulary with
  | some stem, some vocabulary => do
      match ← parser.tokenizer.tokens stem with
      | [start] =>
          let terms := (vocabulary.completions start).map fun token => Expression.term [token]
          pure ((Expression.eitherOf terms).getD (.term []))
      | tokens => pure (.term tokens)
  | _, _ => do
      let tokens ← parser.tokenizer.tokens text
      pure (.term tokens)

/-- The expression of a query text, unless it is blank. -/
def parse (parser : QueryParser) (text : String) : Except Failure (Option Expression) :=
  let lexemes := Lexeme.lex text
  if lexemes.isEmpty then .ok none
  else do
    let expression ← parseLexemes parser.word lexemes
    pure (some expression)

end QueryParser

end Concordance
