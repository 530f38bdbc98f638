import Concordance.Proofs.Query.Grammar

/-!
# Printing queries

The text of an expression puts every combination into parentheses. Its lexemes are those of its
parts with the parentheses and signs between them (`Printable.lex_text`), and they are read as the
expression itself (`Printable.derives`). So an expression whose terms are words that mean themselves
is what its text is read as (`parse_text`).
-/

namespace Concordance

namespace Lexeme

/-! ## Lexemes of printed texts -/

/-- A character that ends a word. -/
def Delimits (c : Char) : Prop :=
  c = '(' ∨ c = ')' ∨ isWhitespace c = true

/-- Characters that end a word in front of them. -/
def Ends (rest : List Char) : Prop :=
  ∀ c ∈ rest.head?, Delimits c

/-- The end of a text ends a word. -/
theorem ends_nil : Ends [] :=
  fun _ h => nomatch h

/-- A bracket or a blank ends a word. -/
theorem ends_cons {c : Char} (h : Delimits c) (rest : List Char) : Ends (c :: rest) :=
  fun _ hc => Option.some.inj hc ▸ h

/-- A word is complete where characters that end it follow. -/
theorem lexFrom_of_ends {rest : List Char} (h : Ends rest) (run : List Char) :
    lexFrom run rest = ofReversed run ++ lexFrom [] rest := by
  cases rest with
  | nil => exact (List.append_nil (ofReversed run)).symm
  | cons c rest =>
      have hc : Delimits c := h c rfl
      by_cases hopening : c = '('
      · subst hopening
        rfl
      · by_cases hclosing : c = ')'
        · subst hclosing
          rfl
        · have hblank : isWhitespace c = true := by
            rcases hc with hc | hc | hc
            · exact absurd hc hopening
            · exact absurd hc hclosing
            · exact hc
          simp only [lexFrom, if_neg hopening, if_neg hclosing, if_pos hblank]
          rfl

/-- The characters of a word are gathered one after another. -/
theorem lexFrom_append {word : List Char} (h : ∀ c ∈ word, ¬ Delimits c) (run rest : List Char) :
    lexFrom run (word ++ rest) = lexFrom (word.reverse ++ run) rest := by
  induction word generalizing run with
  | nil => rfl
  | cons c word ih =>
      have hc := h c List.mem_cons_self
      rw [List.cons_append, lexFrom, if_neg fun hopening => hc (Or.inl hopening),
        if_neg fun hclosing => hc (Or.inr (Or.inl hclosing)),
        if_neg fun hblank => hc (Or.inr (Or.inr hblank)),
        ih fun other hother => h other (List.mem_cons_of_mem c hother), List.reverse_cons,
        List.append_assoc]
      rfl

end Lexeme

/-! ## Words that mean themselves -/

/-- A word of a query text that is no operator and whose only token is the word itself. -/
structure Tokenizer.Keeps (tokenizer : Tokenizer) (word : String) : Prop where
  ne_empty : word ≠ ""
  unbroken : ∀ c ∈ word.toList, isWhitespace c = false ∧ c ≠ '(' ∧ c ≠ ')'
  no_operator : word.toList.map Char.toLower ∉ [['a', 'n', 'd'], ['o', 'r'], ['n', 'o', 't']]
  no_star : word.toList.getLast? ≠ some '*'
  tokens : tokenizer.tokens word = .ok [word]

namespace Tokenizer.Keeps

variable {tokenizer : Tokenizer} {word : String}

/-- No character of a word that means itself would end it. -/
theorem not_delimits (h : tokenizer.Keeps word) : ∀ c ∈ word.toList, ¬ Lexeme.Delimits c := by
  intro c hc hdelimits
  obtain ⟨hblank, hopening, hclosing⟩ := h.unbroken c hc
  rcases hdelimits with rfl | rfl | hwhitespace
  · exact hopening rfl
  · exact hclosing rfl
  · rw [hblank] at hwhitespace
    cases hwhitespace

/-- A word that means itself is read as a word, not as an operator. -/
theorem ofRun_eq (h : tokenizer.Keeps word) : Lexeme.ofRun word.toList = .word word := by
  have hno := h.no_operator
  simp only [List.mem_cons, List.not_mem_nil, or_false, not_or] at hno
  obtain ⟨hand, hor, hnot⟩ := hno
  simp only [Lexeme.ofRun, if_neg hand, if_neg hor, if_neg hnot, String.ofList_toList]

/-- A word that is followed by what ends it is one lexeme. -/
theorem lexFrom_eq (h : tokenizer.Keeps word) {rest : List Char} (hrest : Lexeme.Ends rest) :
    Lexeme.lexFrom [] (word.toList ++ rest) = .word word :: Lexeme.lexFrom [] rest := by
  have hne : word.toList.reverse ≠ [] := by
    rw [Ne, List.reverse_eq_nil_iff, String.toList_eq_nil_iff]
    exact h.ne_empty
  have hrun : Lexeme.ofReversed word.toList.reverse = [.word word] := by
    rw [Lexeme.ofReversed, if_neg fun hempty => hne (List.isEmpty_iff.1 hempty),
      List.reverse_reverse, h.ofRun_eq]
  rw [Lexeme.lexFrom_append h.not_delimits, List.append_nil, Lexeme.lexFrom_of_ends hrest, hrun]
  rfl

end Tokenizer.Keeps

namespace QueryParser

variable {parser : QueryParser} {word : String}

/-- A word that does not end in a star has no stem. -/
theorem stem?_eq_none (h : word.toList.getLast? ≠ some '*') : stem? word = none := by
  unfold stem?
  split
  · rename_i stem hreverse
    rw [List.getLast?_eq_head?_reverse, hreverse] at h
    exact absurd rfl h
  · rfl

/-- A word that means itself is read as a term, whether words are completed or not. -/
theorem word_eq (h : parser.tokenizer.Keeps word) : parser.word word = .ok (.term [word]) := by
  simp only [QueryParser.word, stem?_eq_none h.no_star, h.tokens]
  rfl

end QueryParser

/-! ## Printed expressions -/

namespace Expression

/-- Every term of an expression is a word that means itself. -/
inductive Printable (tokenizer : Tokenizer) : Expression → Prop
  | term {word : String} (h : tokenizer.Keeps word) : Printable tokenizer (.term [word])
  | both {left right : Expression} (hleft : Printable tokenizer left)
      (hright : Printable tokenizer right) : Printable tokenizer (.both left right)
  | either {left right : Expression} (hleft : Printable tokenizer left)
      (hright : Printable tokenizer right) : Printable tokenizer (.either left right)
  | negated {inner : Expression} (h : Printable tokenizer inner) :
      Printable tokenizer (.negated inner)

/-- The lexemes of the text of an expression. -/
def lexemes : Expression → List Lexeme
  | term tokens => tokens.map .word
  | both left right =>
      .opening :: (left.lexemes ++ .conjunction :: right.lexemes ++ [.closing])
  | either left right =>
      .opening :: (left.lexemes ++ .disjunction :: right.lexemes ++ [.closing])
  | negated inner => .opening :: (.negation :: inner.lexemes ++ [.closing])

variable {tokenizer : Tokenizer} {expression : Expression}

/-- Characters that yield certain lexemes if what ends a word follows. -/
def Yields (characters : List Char) (lexemes : List Lexeme) : Prop :=
  ∀ rest : List Char, Lexeme.Ends rest →
    Lexeme.lexFrom [] (characters ++ rest) = lexemes ++ Lexeme.lexFrom [] rest

/-- Two parts in parentheses, with an operator between them that is read as a sign. -/
theorem Yields.pair {left right operator : List Char} {leftLexemes rightLexemes : List Lexeme}
    {sign : Lexeme} (hleft : Yields left leftLexemes) (hright : Yields right rightLexemes)
    (hoperator : ∀ later,
      Lexeme.lexFrom [] (' ' :: (operator ++ ' ' :: later)) = sign :: Lexeme.lexFrom [] later) :
    Yields ('(' :: (left ++ ' ' :: (operator ++ ' ' :: (right ++ [')']))))
      (.opening :: (leftLexemes ++ sign :: rightLexemes ++ [.closing])) := by
  intro rest _
  have hblank : Lexeme.Ends (' ' :: (operator ++ ' ' :: (right ++ ')' :: rest))) :=
    Lexeme.ends_cons (Or.inr (Or.inr rfl)) _
  have hclosing : Lexeme.Ends (')' :: rest) := Lexeme.ends_cons (Or.inr (Or.inl rfl)) rest
  calc Lexeme.lexFrom [] ('(' :: (left ++ ' ' :: (operator ++ ' ' :: (right ++ [')']))) ++ rest)
      = .opening ::
          Lexeme.lexFrom [] (left ++ ' ' :: (operator ++ ' ' :: (right ++ ')' :: rest))) := by
        simp only [List.cons_append, List.append_assoc, List.nil_append]
        rfl
    _ = .opening :: (leftLexemes ++ sign :: Lexeme.lexFrom [] (right ++ ')' :: rest)) := by
        rw [hleft _ hblank, hoperator]
    _ = .opening ::
          (leftLexemes ++ sign :: (rightLexemes ++ .closing :: Lexeme.lexFrom [] rest)) := by
        rw [hright _ hclosing]
        rfl
    _ = .opening :: (leftLexemes ++ sign :: rightLexemes ++ [.closing]) ++
          Lexeme.lexFrom [] rest := by
        simp only [List.cons_append, List.append_assoc, List.nil_append]

/-- A part in parentheses behind a negation. -/
theorem Yields.negated {inner : List Char} {lexemes : List Lexeme} (h : Yields inner lexemes) :
    Yields ('(' :: 'N' :: 'O' :: 'T' :: ' ' :: (inner ++ [')']))
      (.opening :: (.negation :: lexemes ++ [.closing])) := by
  intro rest _
  have hclosing : Lexeme.Ends (')' :: rest) := Lexeme.ends_cons (Or.inr (Or.inl rfl)) rest
  calc Lexeme.lexFrom [] ('(' :: 'N' :: 'O' :: 'T' :: ' ' :: (inner ++ [')']) ++ rest)
      = .opening :: .negation :: Lexeme.lexFrom [] (inner ++ ')' :: rest) := by
        simp only [List.cons_append, List.append_assoc, List.nil_append]
        rfl
    _ = .opening :: .negation :: (lexemes ++ .closing :: Lexeme.lexFrom [] rest) := by
        rw [h _ hclosing]
        rfl
    _ = .opening :: (.negation :: lexemes ++ [.closing]) ++ Lexeme.lexFrom [] rest := by
        simp only [List.cons_append, List.append_assoc, List.nil_append]

/-- The text of an expression yields its lexemes. -/
theorem Printable.yields (h : expression.Printable tokenizer) :
    Yields expression.text.toList expression.lexemes := by
  induction h with
  | @term word h =>
      have htext : (Expression.term [word]).text = word := String.intercalate_singleton
      rw [htext]
      exact fun _ hrest => h.lexFrom_eq hrest
  | @both left right _ _ hleft hright =>
      have htext : (Expression.both left right).text.toList =
          '(' :: (left.text.toList ++ ' ' :: (['A', 'N', 'D'] ++ ' ' ::
            (right.text.toList ++ [')']))) := by
        simp [text]
      rw [htext]
      exact hleft.pair hright fun _ => rfl
  | @either left right _ _ hleft hright =>
      have htext : (Expression.either left right).text.toList =
          '(' :: (left.text.toList ++ ' ' :: (['O', 'R'] ++ ' ' ::
            (right.text.toList ++ [')']))) := by
        simp [text]
      rw [htext]
      exact hleft.pair hright fun _ => rfl
  | @negated inner _ hinner =>
      have htext : (Expression.negated inner).text.toList =
          '(' :: 'N' :: 'O' :: 'T' :: ' ' :: (inner.text.toList ++ [')']) := by
        simp [text]
      rw [htext]
      exact hinner.negated

/-- The text of an expression is read as its lexemes. -/
theorem Printable.lex_text (h : expression.Printable tokenizer) :
    Lexeme.lex expression.text = expression.lexemes := by
  have hlex := h.yields [] Lexeme.ends_nil
  rwa [List.append_nil, Lexeme.lexFrom, Lexeme.ofReversed, if_pos List.isEmpty_nil,
    List.append_nil] at hlex

open QueryParser (Derives)

/-- The lexemes of an expression stand for it, in parentheses or as a word. -/
theorem Printable.derives {parser : QueryParser} (h : expression.Printable parser.tokenizer) :
    Derives parser.word .primary expression.lexemes expression := by
  induction h with
  | term h => exact Derives.word (QueryParser.word_eq h)
  | both _ _ hleft hright =>
      exact Derives.group (hleft.plain.operand.both hright.plain).alternative
  | either _ _ hleft hright =>
      exact Derives.group (hleft.plain.operand.alternative.either hright.plain.operand)
  | negated _ h => exact Derives.group h.plain.negated.operand.alternative

/-- **Printing and reading are inverse.** An expression each of whose terms is one word that is no
operator, has no star at its end and is its own and only token is what its text is read as, whether
the parser completes words or not. -/
theorem parse_text (parser : QueryParser) (h : expression.Printable parser.tokenizer) :
    parser.parse expression.text = .ok (some expression) := by
  have hderives : Derives parser.word .disjunction (Lexeme.lex expression.text) expression :=
    h.lex_text ▸ h.derives.plain.operand.alternative
  rw [QueryParser.parse_of_ne_nil hderives.ne_nil,
    QueryParser.parseLexemes_eq_ok_iff.2 hderives]
  rfl

/-- A negation inside a conjunction inside a disjunction, read with a vocabulary. -/
theorem parse_text_nested :
    let parser : QueryParser :=
      { tokenizer := QueryParser.wholeTexts, vocabulary := some (Vocabulary.ofList ["ox", "oxen"]) }
    let expression := either (both (term ["ox"]) (negated (term ["nota"]))) (term ["*andy"])
    expression.text = "((ox AND (NOT nota)) OR *andy)" ∧ expression.Printable parser.tokenizer ∧
      parser.parse expression.text = .ok (some expression) := by
  intro parser expression
  have hprintable : expression.Printable parser.tokenizer := by
    have hunbroken : ∀ word ∈ ["ox", "nota", "*andy"],
        word.toList.all fun c => isWhitespace c = false ∧ c ≠ '(' ∧ c ≠ ')' := by
      decide +kernel
    have hkeeps : ∀ word ∈ ["ox", "nota", "*andy"], parser.tokenizer.Keeps word := by
      intro word hword
      refine ⟨?_, fun c hc => ?_, ?_, ?_, rfl⟩
      · revert word
        decide
      · exact of_decide_eq_true (List.all_eq_true.1 (hunbroken word hword) c hc)
      · revert word
        decide +kernel
      · revert word
        decide +kernel
    exact .either (.both (.term (hkeeps _ (by decide))) (.negated (.term (hkeeps _ (by decide)))))
      (.term (hkeeps _ (by decide)))
  exact ⟨by decide +kernel, hprintable, parse_text parser hprintable⟩

end Expression
end Concordance
