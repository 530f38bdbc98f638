import Concordance.Proofs.Query.Printing
import Concordance.Proofs.Table
import Concordance.Proofs.Text.ByteOrder

/-!
# Reading words that end in a star

A word that ends in a star is one lexeme and never an operator (`Lexeme.lex_starred`). If there is a
single token in front of the star, the word means any token of the vocabulary whose bytes begin with
those of this token (`Vocabulary.mem_completions`, `QueryParser.parse_starred`).
-/

namespace Concordance

/-! ## Vocabularies -/

namespace Vocabulary

/-- A vocabulary has the tokens it was made of. -/
theorem mem_keys_ofList {tokens : List String} {token : String} :
    token ∈ (ofList tokens).table.keys ↔ token ∈ tokens := by
  suffices hgeneral : ∀ table : Table Unit,
      token ∈ (tokens.foldl (fun table token => table.insert token ()) table).keys ↔
        token ∈ tokens ∨ token ∈ table.keys from
    (hgeneral Table.empty).trans (or_iff_left List.not_mem_nil)
  induction tokens with
  | nil => exact fun table => (or_iff_right List.not_mem_nil).symm
  | cons first rest ih =>
      intro table
      have hinsert : token ∈ (table.insert first ()).keys ↔ token = first ∨ token ∈ table.keys := by
        rw [Table.mem_keys, Table.mem_keys, Table.find?_insert]
        by_cases h : token = first
        · simp [h]
        · simp [h]
      rw [List.foldl_cons, ih, hinsert, List.mem_cons, or_left_comm, or_assoc]

/-- The completions of a stem are the tokens whose bytes begin with those of the stem. -/
theorem mem_completions {tokens : List String} {stem token : String} :
    token ∈ (ofList tokens).completions stem ↔
      token ∈ tokens ∧ Bytes.ofText stem <+: Bytes.ofText token := by
  rw [completions, List.mem_filter, mem_keys_ofList, startsWith, List.isPrefixOf_iff_prefix,
    Bytes.ofText_prefix_iff]

end Vocabulary

/-! ## Lexemes -/

namespace Lexeme

/-- Whether a character ends a word can be checked. -/
instance : DecidablePred Delimits := fun c =>
  inferInstanceAs (Decidable (c = '(' ∨ c = ')' ∨ isWhitespace c = true))

variable {stem : String}

/-- A run that ends in a star is no operator. -/
theorem ofRun_starred (run : List Char) :
    ofRun (run ++ ['*']) = .word (String.ofList (run ++ ['*'])) := by
  have hlast : ((run ++ ['*']).map Char.toLower).getLast? = some '*' := by
    rw [List.map_append, List.map_singleton, List.getLast?_concat]
    rfl
  have hoperator : ∀ operator : List Char, operator.getLast? ≠ some '*' →
      (run ++ ['*']).map Char.toLower ≠ operator := by
    rintro operator hother rfl
    exact hother hlast
  unfold ofRun
  simp only [if_neg (hoperator ['a', 'n', 'd'] (by decide)),
    if_neg (hoperator ['o', 'r'] (by decide)), if_neg (hoperator ['n', 'o', 't'] (by decide))]

/-- A word that ends in a star is one lexeme. -/
theorem lex_starred (hstem : ∀ c ∈ stem.toList, ¬ Delimits c) :
    lex (stem ++ "*") = [.word (stem ++ "*")] := by
  have hword : (stem ++ "*").toList = stem.toList ++ ['*'] := String.toList_append
  have hunbroken : ∀ c ∈ stem.toList ++ ['*'], ¬ Delimits c := by
    intro c hc
    rcases List.mem_append.1 hc with hc | hc
    · exact hstem c hc
    · rw [List.mem_singleton.1 hc]
      decide
  have hfrom := lexFrom_append hunbroken [] []
  rw [List.append_nil, List.append_nil] at hfrom
  rw [lex, hword, hfrom, lexFrom, ofReversed, if_neg (by simp), List.reverse_reverse,
    ofRun_starred, ← hword, String.ofList_toList]

end Lexeme

/-! ## Expressions -/

namespace QueryParser

variable {parser : QueryParser} {vocabulary : Vocabulary} {stem start : String}

/-- A star behind a stem is taken off again. -/
theorem stem?_starred (stem : String) : stem? (stem ++ "*") = some stem := by
  have hword : (stem ++ "*").toList.reverse = '*' :: stem.toList.reverse := by
    rw [String.toList_append]
    exact List.reverse_append
  rw [stem?, hword]
  show some (String.ofList stem.toList.reverse.reverse) = some stem
  rw [List.reverse_reverse, String.ofList_toList]

/-- Any token that begins with this one. -/
def completed (vocabulary : Vocabulary) (start : String) : Expression :=
  (Expression.eitherOf ((vocabulary.completions start).map fun token => .term [token])).getD
    (.term [])

/-- A word that ends in a star is read as any of the completions of the token in front of it. -/
theorem parse_starred (hvocabulary : parser.vocabulary = some vocabulary)
    (hstem : ∀ c ∈ stem.toList, ¬ Lexeme.Delimits c)
    (hstart : parser.tokenizer.tokens stem = .ok [start]) :
    parser.parse (stem ++ "*") = .ok (some (completed vocabulary start)) := by
  have hword : parser.word (stem ++ "*") = .ok (completed vocabulary start) := by
    simp only [word, stem?_starred, hvocabulary, hstart]
    rfl
  have hderives : Derives parser.word .disjunction (Lexeme.lex (stem ++ "*"))
      (completed vocabulary start) := by
    rw [Lexeme.lex_starred hstem]
    exact (Derives.word hword).plain.operand.alternative
  rw [parse_of_ne_nil hderives.ne_nil, parseLexemes_eq_ok_iff.2 hderives]
  rfl

end QueryParser
end Concordance
