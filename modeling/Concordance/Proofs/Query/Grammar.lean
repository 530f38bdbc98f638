import Concordance.Proofs.Success
import Concordance.Query.Parser

/-!
# The grammar of boolean queries

`Derives` says which lexemes make up an expression. Reading lexemes leads to their expression
(`Derives.reads`), and only expressions are read to an end (`reached_read`, `derives_of_finish`),
so that a query is read exactly if it is one (`parse_derives`). What is no query is refused as
such, unless one of its words has no meaning.
-/

namespace Concordance

namespace QueryParser

/-! ## Derivations -/

/-- The kinds of expressions, from the loosest binding to the closest. -/
inductive Nonterminal where
  | disjunction
  | conjunction
  | negation
  | primary
deriving DecidableEq, Repr

/-- The lexemes that make up an expression of each kind:
```text
disjunction := conjunction ("OR" conjunction)*
conjunction := negation (["AND"] negation)*
negation    := "NOT" negation | primary
primary     := "(" disjunction ")" | word
```
Chains are joined to the left, and `leaf` says what a word means. -/
inductive Derives (leaf : String → Except Failure Expression) :
    Nonterminal → List Lexeme → Expression → Prop where
  | alternative {lexemes expression} (h : Derives leaf .conjunction lexemes expression) :
      Derives leaf .disjunction lexemes expression
  | either {first second left right} (hfirst : Derives leaf .disjunction first left)
      (hsecond : Derives leaf .conjunction second right) :
      Derives leaf .disjunction (first ++ .disjunction :: second) (.either left right)
  | operand {lexemes expression} (h : Derives leaf .negation lexemes expression) :
      Derives leaf .conjunction lexemes expression
  | both {first second left right} (hfirst : Derives leaf .conjunction first left)
      (hsecond : Derives leaf .negation second right) :
      Derives leaf .conjunction (first ++ .conjunction :: second) (.both left right)
  | adjoined {first second left right} (hfirst : Derives leaf .conjunction first left)
      (hsecond : Derives leaf .negation second right) :
      Derives leaf .conjunction (first ++ second) (.both left right)
  | negated {lexemes inner} (h : Derives leaf .negation lexemes inner) :
      Derives leaf .negation (.negation :: lexemes) (.negated inner)
  | plain {lexemes expression} (h : Derives leaf .primary lexemes expression) :
      Derives leaf .negation lexemes expression
  | group {lexemes expression} (h : Derives leaf .disjunction lexemes expression) :
      Derives leaf .primary (.opening :: (lexemes ++ [.closing])) expression
  | word {text expression} (h : leaf text = .ok expression) :
      Derives leaf .primary [.word text] expression

variable {leaf : String → Except Failure Expression} {lexemes : List Lexeme}
  {expression : Expression}

/-- No expression is made up of no lexemes. -/
theorem Derives.ne_nil {kind : Nonterminal} (h : Derives leaf kind lexemes expression) :
    lexemes ≠ [] := by
  induction h with
  | alternative _ ih | operand _ ih | plain _ ih => exact ih
  | either | both | negated | group | word => simp
  | adjoined _ _ ih => exact fun hnil => ih (List.append_eq_nil_iff.1 hnil).1

/-! ## Reading what is derived -/

/-- Reading lexemes leads from one progress to another. -/
def Reads (leaf : String → Except Failure Expression) (progress : Progress)
    (lexemes : List Lexeme) (later : Progress) : Prop :=
  lexemes.foldlM (read leaf) progress = .ok later

section Reading

variable {progress middle later : Progress} {first second : List Lexeme} {lexeme : Lexeme}

/-- Lexemes are read one after another, the first one first. -/
theorem Reads.cons (hfirst : read leaf progress lexeme = .ok middle)
    (hrest : Reads leaf middle lexemes later) : Reads leaf progress (lexeme :: lexemes) later := by
  rw [Reads, List.foldlM_cons, hfirst]
  exact hrest

/-- A lexeme that is read leads from one progress to another by itself. -/
theorem Reads.single (h : read leaf progress lexeme = .ok later) :
    Reads leaf progress [lexeme] later :=
  Reads.cons h rfl

/-- What is read in two parts is read at once. -/
theorem Reads.append (hfirst : Reads leaf progress first middle)
    (hsecond : Reads leaf middle second later) : Reads leaf progress (first ++ second) later := by
  rw [Reads, List.foldlM_append, hfirst]
  exact hsecond

end Reading

/-- A word adds its meaning as an operand. -/
theorem readOperand_word (progress : Progress) (text : String) :
    readOperand leaf progress (.word text) =
      leaf text >>= fun operand => pure (progress.addOperand operand) := rfl

/-- A closing bracket hands the result of its level to the level outside, if there are both. -/
theorem readOperator_closing (leaf : String → Except Failure Expression) (progress : Progress) :
    readOperator leaf progress .closing =
      match progress.outer, progress.level.result? with
      | level :: outer, some operand =>
          .ok (Progress.addOperand { level, outer, awaiting := true } operand)
      | _, _ => .error (.lexemeAfterQuery Lexeme.closing.text) := rfl

/-- A lexeme with which an operand begins. -/
def Begins : Lexeme → Prop
  | .negation | .opening | .word _ => True
  | _ => False

/-- Where an operand may begin, it is read in the same way whether one is due or not. -/
theorem read_of_begins {lexeme : Lexeme} (h : Begins lexeme) (progress : Progress)
    (awaiting : Bool) :
    read leaf { progress with awaiting } lexeme = readOperand leaf progress lexeme := by
  cases lexeme with
  | negation | opening | word => cases awaiting <;> rfl
  | closing | conjunction | disjunction => cases h

/-- Negations and what they are made of begin like operands. -/
theorem Derives.begins {kind : Nonterminal} (h : Derives leaf kind lexemes expression) :
    ∃ first rest, lexemes = first :: rest ∧ Begins first := by
  induction h with
  | alternative _ ih | operand _ ih | plain _ ih => exact ih
  | either _ _ ih | both _ _ ih | adjoined _ _ ih =>
      obtain ⟨first, rest, rfl, hfirst⟩ := ih
      exact ⟨first, _, rfl, hfirst⟩
  | negated | group | word => exact ⟨_, _, rfl, trivial⟩

/-- An operand that follows another one is read as if it were due. -/
theorem Reads.of_awaiting {kind : Nonterminal} {progress later : Progress}
    (h : Derives leaf kind lexemes expression)
    (hreads : Reads leaf { progress with awaiting := true } lexemes later) :
    Reads leaf progress lexemes later := by
  obtain ⟨first, rest, rfl, hfirst⟩ := h.begins
  rw [Reads, List.foldlM_cons] at hreads ⊢
  rw [← hreads, read_of_begins hfirst progress true]
  exact congrArg (· >>= fun next => rest.foldlM (read leaf) next)
    (read_of_begins hfirst progress progress.awaiting)

/-- A negated expression has one negation more. -/
theorem Level.negate_negated (count : Nat) (inner : Expression) :
    negate count (.negated inner) = negate (count + 1) inner := by
  induction count with
  | zero => rfl
  | succ count ih => exact congrArg Expression.negated ih

/-- What reading an expression of each kind does where an operand is due. A disjunction fills the
level of a parenthesis, a conjunction one alternative of a level; an operand is joined to the level
it stands in. -/
def Nonterminal.Consumes (leaf : String → Except Failure Expression) (lexemes : List Lexeme)
    (expression : Expression) : Nonterminal → Prop
  | .disjunction => ∀ outer, ∃ level : Level, level.result? = some expression ∧
      Reads leaf { outer } lexemes { level, outer, awaiting := false }
  | .conjunction => ∀ alternatives outer,
      Reads leaf { level := { alternatives }, outer } lexemes
        { level := { alternatives, conjunction := some expression }, outer, awaiting := false }
  | .negation | .primary => ∀ level outer,
      Reads leaf { level, outer } lexemes (Progress.addOperand { level, outer } expression)

/-- The lexemes of an expression are read as that expression. -/
theorem Derives.reads {kind : Nonterminal} (h : Derives leaf kind lexemes expression) :
    kind.Consumes leaf lexemes expression := by
  induction h with
  | alternative _ ih =>
      intro outer
      exact ⟨_, rfl, ih none outer⟩
  | @either first second left right _ _ ihfirst ihsecond =>
      intro outer
      obtain ⟨level, hresult, hfirst⟩ := ihfirst outer
      have hsign : read leaf { level, outer, awaiting := false } .disjunction =
          .ok { level := { alternatives := some left }, outer } := by
        rw [← hresult]
        rfl
      exact ⟨{ alternatives := some left, conjunction := some right }, rfl,
        hfirst.append (Reads.cons hsign (ihsecond _ outer))⟩
  | operand _ ih =>
      intro alternatives outer
      exact ih { alternatives } outer
  | both _ _ ihfirst ihsecond =>
      intro alternatives outer
      exact (ihfirst alternatives outer).append (Reads.cons rfl (ihsecond _ outer))
  | adjoined _ hsecond ihfirst ihsecond =>
      intro alternatives outer
      exact (ihfirst alternatives outer).append (Reads.of_awaiting hsecond (ihsecond _ outer))
  | @negated lexemes inner _ ih =>
      intro level outer
      refine Reads.cons rfl ?_
      have hinner := ih { level with negations := level.negations + 1 } outer
      unfold Progress.addOperand Level.addOperand at hinner ⊢
      rwa [Level.negate_negated]
  | plain _ ih => exact ih
  | group _ ih =>
      intro level outer
      obtain ⟨inner, hresult, hinner⟩ := ih (level :: outer)
      refine Reads.cons rfl (hinner.append (Reads.single ((readOperator_closing leaf _).trans ?_)))
      rw [hresult]
  | word h =>
      intro level outer
      refine Reads.single ((readOperand_word _ _).trans ?_)
      rw [h]
      rfl

/-! ## Deriving what was read -/

/-- The alternatives of a level are a disjunction, up to the sign behind it. -/
inductive Before (leaf : String → Except Failure Expression) :
    List Lexeme → Option Expression → Prop where
  | nothing : Before leaf [] none
  | alternatives {lexemes : List Lexeme} {expression : Expression}
      (h : Derives leaf .disjunction lexemes expression) :
      Before leaf (lexemes ++ [.disjunction]) (some expression)

/-- The operands of an alternative are a conjunction, perhaps with a sign behind it. -/
inductive Joined (leaf : String → Except Failure Expression) :
    List Lexeme → Option Expression → Prop where
  | nothing : Joined leaf [] none
  | operands {lexemes : List Lexeme} {expression : Expression}
      (h : Derives leaf .conjunction lexemes expression) :
      Joined leaf lexemes (some expression)
  | sign {lexemes : List Lexeme} {expression : Expression}
      (h : Derives leaf .conjunction lexemes expression) :
      Joined leaf (lexemes ++ [.conjunction]) (some expression)

/-- The lexemes of a level that goes on with an operand. -/
inductive Pending (leaf : String → Except Failure Expression) : List Lexeme → Level → Prop where
  | intro {before joined : List Lexeme} {alternatives conjunction : Option Expression}
      (hbefore : Before leaf before alternatives) (hjoined : Joined leaf joined conjunction)
      (negations : Nat) :
      Pending leaf (before ++ joined ++ List.replicate negations .negation)
        { alternatives, conjunction, negations }

/-- The lexemes of a level that ends with an operand. -/
inductive Complete (leaf : String → Except Failure Expression) : List Lexeme → Level → Prop where
  | intro {before operands : List Lexeme} {alternatives : Option Expression}
      {expression : Expression} (hbefore : Before leaf before alternatives)
      (hoperands : Derives leaf .conjunction operands expression) :
      Complete leaf (before ++ operands) { alternatives, conjunction := some expression }

/-- The lexemes up to the parentheses that are open. -/
inductive Enclosed (leaf : String → Except Failure Expression) :
    List Lexeme → List Level → Prop where
  | nothing : Enclosed leaf [] []
  | opened {lexemes inside : List Lexeme} {level : Level} {outer : List Level}
      (houter : Enclosed leaf lexemes outer)
      (hlevel : Pending leaf inside level) :
      Enclosed leaf (lexemes ++ inside ++ [.opening]) (level :: outer)

/-- What has been read so far, taken apart at the open parentheses. -/
inductive Reached (leaf : String → Except Failure Expression) : List Lexeme → Progress → Prop where
  | awaiting {lexemes inside : List Lexeme} {level : Level} {outer : List Level}
      (houter : Enclosed leaf lexemes outer)
      (hlevel : Pending leaf inside level) :
      Reached leaf (lexemes ++ inside) { level, outer, awaiting := true }
  | complete {lexemes inside : List Lexeme} {level : Level} {outer : List Level}
      (houter : Enclosed leaf lexemes outer)
      (hlevel : Complete leaf inside level) :
      Reached leaf (lexemes ++ inside) { level, outer, awaiting := false }

section Levels

variable {inside : List Lexeme} {level : Level}

/-- A primary may be negated any number of times. -/
theorem Derives.negate (h : Derives leaf .primary lexemes expression) (count : Nat) :
    Derives leaf .negation (List.replicate count .negation ++ lexemes)
      (Level.negate count expression) := by
  induction count with
  | zero => exact h.plain
  | succ count ih => exact ih.negated

/-- A level of its own. -/
theorem Pending.start : Pending leaf [] {} :=
  Pending.intro Before.nothing Joined.nothing 0

/-- One more negation may stand where an operand is still to come. -/
theorem Pending.negation (h : Pending leaf inside level) :
    Pending leaf (inside ++ [.negation]) { level with negations := level.negations + 1 } := by
  cases h with
  | intro hbefore hjoined =>
      rw [List.append_assoc _ _ [Lexeme.negation], ← List.replicate_succ']
      exact Pending.intro hbefore hjoined _

/-- An operand completes a level that waited for one. -/
theorem Pending.operand (h : Pending leaf inside level)
    (hoperand : Derives leaf .primary lexemes expression) :
    Complete leaf (inside ++ lexemes) (level.addOperand expression) := by
  cases h with
  | intro hbefore hjoined negations =>
      have hnegated := hoperand.negate negations
      rw [List.append_assoc, List.append_assoc]
      cases hjoined with
      | nothing => exact Complete.intro hbefore hnegated.operand
      | operands hoperands => exact Complete.intro hbefore (hoperands.adjoined hnegated)
      | sign hoperands =>
          rw [List.append_assoc, List.singleton_append]
          exact Complete.intro hbefore (hoperands.both hnegated)

/-- Behind an operand another one may follow, with or without a sign. -/
theorem Complete.pending (h : Complete leaf inside level) : Pending leaf inside level := by
  cases h with
  | intro hbefore hoperands =>
      have hpending := Pending.intro hbefore (Joined.operands hoperands) 0
      rwa [List.replicate_zero, List.append_nil] at hpending

/-- A sign of conjunction makes a complete level wait for an operand. -/
theorem Complete.conjunction (h : Complete leaf inside level) :
    Pending leaf (inside ++ [.conjunction]) level := by
  cases h with
  | intro hbefore hoperands =>
      have hpending := Pending.intro hbefore (Joined.sign hoperands) 0
      rw [List.replicate_zero, List.append_nil, ← List.append_assoc] at hpending
      exact hpending

/-- The result of a level is a disjunction. -/
theorem Complete.result (h : Complete leaf inside level) :
    ∃ expression, level.result? = some expression ∧
      Derives leaf .disjunction inside expression := by
  cases h with
  | intro hbefore hoperands =>
      cases hbefore with
      | nothing => exact ⟨_, rfl, hoperands.alternative⟩
      | alternatives halternatives =>
          rw [List.append_assoc, List.singleton_append]
          exact ⟨_, rfl, halternatives.either hoperands⟩

/-- A sign of disjunction begins another alternative of a complete level. -/
theorem Complete.disjunction (h : Complete leaf inside level) :
    Pending leaf (inside ++ [.disjunction]) level.beginAlternative := by
  obtain ⟨expression, hresult, hderives⟩ := h.result
  have hpending := Pending.intro (Before.alternatives hderives) Joined.nothing 0
  rw [List.replicate_zero, List.append_nil, List.append_nil, ← hresult] at hpending
  exact hpending

end Levels

/-- Reading a lexeme keeps what has been read taken apart. -/
theorem reached_readOperand {progress later : Progress} {lexeme : Lexeme}
    {inside : List Lexeme} (houter : Enclosed leaf lexemes progress.outer)
    (hlevel : Pending leaf inside progress.level)
    (h : readOperand leaf progress lexeme = .ok later) :
    Reached leaf (lexemes ++ inside ++ [lexeme]) later := by
  cases lexeme with
  | negation =>
      cases h
      rw [List.append_assoc]
      exact Reached.awaiting houter hlevel.negation
  | opening =>
      cases h
      have hreached := Reached.awaiting (Enclosed.opened houter hlevel) Pending.start
      rwa [List.append_nil] at hreached
  | word text =>
      obtain ⟨operand, hoperand, hlater⟩ := Success.eq_ok_of_bind h
      cases hlater
      rw [List.append_assoc]
      exact Reached.complete houter (hlevel.operand (Derives.word hoperand))
  | closing | conjunction | disjunction => cases h

/-- Behind an operand, an operator leads to a progress that can be reached. -/
theorem reached_readOperator {progress later : Progress} {lexeme : Lexeme}
    {inside : List Lexeme} (houter : Enclosed leaf lexemes progress.outer)
    (hlevel : Complete leaf inside progress.level)
    (h : readOperator leaf progress lexeme = .ok later) :
    Reached leaf (lexemes ++ inside ++ [lexeme]) later := by
  cases lexeme with
  | conjunction =>
      cases h
      rw [List.append_assoc]
      exact Reached.awaiting houter hlevel.conjunction
  | disjunction =>
      cases h
      rw [List.append_assoc]
      exact Reached.awaiting houter hlevel.disjunction
  | closing =>
      obtain ⟨result, hresult, hderives⟩ := hlevel.result
      obtain ⟨level, outer, awaiting⟩ := progress
      rw [readOperator_closing, hresult] at h
      cases houter with
      | nothing => cases h
      | opened houter hpending =>
          cases h
          have hreached := Reached.complete houter (hpending.operand hderives.group)
          simp only [List.append_assoc, List.singleton_append] at hreached ⊢
          exact hreached
  | negation | opening | word => exact reached_readOperand houter hlevel.pending h

/-- Every lexeme leads from a progress that can be reached to another one. -/
theorem reached_read {progress later : Progress} {lexeme : Lexeme}
    (hreached : Reached leaf lexemes progress) (h : read leaf progress lexeme = .ok later) :
    Reached leaf (lexemes ++ [lexeme]) later := by
  cases hreached with
  | awaiting houter hlevel => exact reached_readOperand houter hlevel h
  | complete houter hlevel => exact reached_readOperator houter hlevel h

/-- What is read to its end is an expression. -/
theorem derives_of_finish {progress : Progress} (hreached : Reached leaf lexemes progress)
    (h : finish progress = .ok expression) : Derives leaf .disjunction lexemes expression := by
  cases hreached with
  | awaiting => cases h
  | complete houter hlevel =>
      obtain ⟨result, hresult, hderives⟩ := hlevel.result
      unfold finish at h
      rw [if_neg Bool.false_ne_true, hresult] at h
      cases houter with
      | nothing =>
          cases h
          exact hderives
      | opened => cases h

/-- Lexemes are read as an expression exactly if they make it up. -/
theorem parseLexemes_eq_ok_iff :
    parseLexemes leaf lexemes = .ok expression ↔
      Derives leaf .disjunction lexemes expression := by
  constructor
  · intro h
    obtain ⟨progress, hreads, hfinish⟩ := Success.eq_ok_of_bind h
    have hstart : Reached leaf [] {} := Reached.awaiting Enclosed.nothing Pending.start
    refine derives_of_finish ?_ hfinish
    exact Success.foldlM_induction (Reached leaf)
      (fun _ _ _ _ hreached hread => reached_read hreached hread) hstart hreads
  · intro h
    obtain ⟨level, hresult, hreads⟩ := h.reads []
    have hstart : lexemes.foldlM (read leaf) {} = .ok { level, outer := [], awaiting := false } :=
      hreads
    rw [parseLexemes, hstart]
    show finish { level, outer := [], awaiting := false } = _
    rw [finish, if_neg Bool.false_ne_true, hresult]

/-! ## Refusals -/

/-- Every word among the lexemes has a meaning. -/
def Meaningful (leaf : String → Except Failure Expression) (lexemes : List Lexeme) : Prop :=
  ∀ text, .word text ∈ lexemes → ∃ expression, leaf text = .ok expression

/-- A lexeme that is refused makes a parse error, unless it is a word without a meaning. -/
theorem category_of_read {progress : Progress} {lexeme : Lexeme} {failure : Failure}
    (hmeaningful : Meaningful leaf [lexeme]) (h : read leaf progress lexeme = .error failure) :
    failure.category = .parse := by
  have hoperand : readOperand leaf progress lexeme = .error failure →
      failure.category = .parse := by
    intro h
    cases lexeme with
    | word text =>
        obtain ⟨expression, hleaf⟩ := hmeaningful text List.mem_cons_self
        rw [readOperand_word, hleaf] at h
        cases h
    | negation | opening => cases h
    | closing | conjunction | disjunction =>
        cases h
        rfl
  unfold read at h
  split at h
  · exact hoperand h
  · cases lexeme with
    | conjunction | disjunction => cases h
    | closing =>
        rw [readOperator_closing] at h
        split at h
        · cases h
        · cases h
          rfl
    | negation | opening | word => exact hoperand h

/-- Lexemes that are refused make a parse error, unless some word among them has no meaning. -/
theorem category_of_foldlM {progress : Progress} {failure : Failure}
    (hmeaningful : Meaningful leaf lexemes)
    (h : lexemes.foldlM (read leaf) progress = .error failure) : failure.category = .parse := by
  induction lexemes generalizing progress with
  | nil => cases h
  | cons lexeme rest ih =>
      rw [List.foldlM_cons] at h
      cases hread : read leaf progress lexeme with
      | error other =>
          rw [hread] at h
          cases h
          exact category_of_read (fun text htext => hmeaningful text (by
            rw [List.mem_singleton.1 htext]
            exact List.mem_cons_self)) hread
      | ok later =>
          rw [hread] at h
          exact ih (fun text htext => hmeaningful text (List.mem_cons_of_mem _ htext)) h

/-- Lexemes whose words have a meaning are only refused because they are no query. -/
theorem category_of_parseLexemes {failure : Failure} (hmeaningful : Meaningful leaf lexemes)
    (h : parseLexemes leaf lexemes = .error failure) : failure.category = .parse := by
  unfold parseLexemes at h
  cases hreads : lexemes.foldlM (read leaf) {} with
  | error other =>
      rw [hreads] at h
      cases h
      exact category_of_foldlM hmeaningful hreads
  | ok progress =>
      rw [hreads] at h
      change finish progress = .error failure at h
      unfold finish at h
      split at h
      · cases h
        rfl
      · split at h
        · cases h
        · cases h
          rfl

/-! ## Query texts -/

/-- The text whose tokens decide what a word means: the word, or what stands in front of its
star. -/
def asked (parser : QueryParser) (text : String) : String :=
  match stem? text, parser.vocabulary with
  | some stem, some _ => stem
  | _, _ => text

/-- A word has a meaning if the tokenizer succeeds on it. -/
theorem exists_word {parser : QueryParser} {text : String}
    (h : ∃ tokens, parser.tokenizer.tokens (parser.asked text) = .ok tokens) :
    ∃ expression, parser.word text = .ok expression := by
  obtain ⟨tokens, htokens⟩ := h
  cases hstem : stem? text with
  | none =>
      simp only [asked, hstem] at htokens
      simp only [word, hstem, htokens]
      exact ⟨_, rfl⟩
  | some stem =>
      cases hvocabulary : parser.vocabulary with
      | none =>
          simp only [asked, hstem, hvocabulary] at htokens
          simp only [word, hstem, hvocabulary, htokens]
          exact ⟨_, rfl⟩
      | some vocabulary =>
          simp only [asked, hstem, hvocabulary] at htokens
          simp only [word, hstem, hvocabulary, htokens, bind, Except.bind]
          -- a single token is completed, and several ones stay a phrase
          split
          · exact ⟨_, rfl⟩
          · exact ⟨_, rfl⟩

variable {parser : QueryParser} {text : String}

/-- A text that is not blank is read as its lexemes. -/
theorem parse_of_ne_nil (h : Lexeme.lex text ≠ []) :
    parser.parse text =
      parseLexemes parser.word (Lexeme.lex text) >>= fun expression => pure (some expression) := by
  unfold parse
  exact if_neg fun hempty => h (List.isEmpty_iff.1 hempty)

/-- A text without lexemes asks for nothing. -/
theorem parse_of_eq_nil (h : Lexeme.lex text = []) : parser.parse text = .ok none := by
  unfold parse
  rw [h]
  rfl

/-- **The parser reads the grammar.** If the tokenizer succeeds on the words of a text, the text is
read as nothing exactly if it has no lexemes, and as an expression exactly if its lexemes make that
expression up. All other texts are refused as unreadable. -/
theorem parse_derives (parser : QueryParser) (text : String)
    (hwords : ∀ word, .word word ∈ Lexeme.lex text →
      ∃ tokens, parser.tokenizer.tokens (parser.asked word) = .ok tokens) :
    (parser.parse text = .ok none ↔ Lexeme.lex text = []) ∧
      (∀ expression, parser.parse text = .ok (some expression) ↔
        Derives parser.word .disjunction (Lexeme.lex text) expression) ∧
      (Lexeme.lex text ≠ [] →
        (¬ ∃ expression, Derives parser.word .disjunction (Lexeme.lex text) expression) →
          ∃ failure, parser.parse text = .error failure ∧ failure.category = .parse) := by
  have hmeaningful : Meaningful parser.word (Lexeme.lex text) :=
    fun word hword => exists_word (hwords word hword)
  by_cases hblank : Lexeme.lex text = []
  · rw [parse_of_eq_nil hblank]
    refine ⟨iff_of_true rfl hblank, fun expression => iff_of_false ?_ ?_, absurd hblank⟩
    · exact fun h => by cases h
    · exact fun h => h.ne_nil hblank
  · rw [parse_of_ne_nil hblank]
    refine ⟨iff_of_false (fun h => ?_) hblank, fun expression => ?_, fun _ hnone => ?_⟩
    · obtain ⟨_, -, h⟩ := Success.eq_ok_of_bind h
      cases h
    · rw [← parseLexemes_eq_ok_iff]
      constructor
      · intro h
        obtain ⟨result, hresult, h⟩ := Success.eq_ok_of_bind h
        cases h
        exact hresult
      · intro h
        rw [h]
        rfl
    · cases hparse : parseLexemes parser.word (Lexeme.lex text) with
      | ok expression => exact absurd ⟨expression, parseLexemes_eq_ok_iff.1 hparse⟩ hnone
      | error failure =>
          exact ⟨failure, rfl, category_of_parseLexemes hmeaningful hparse⟩

/-- Takes every text as one token. -/
def wholeTexts : Tokenizer :=
  { name := "whole", normalize := id, tokenize := fun text => .ok [text] }

/-- A negation binds closer than the conjunction in its parentheses, and the disjunction is the
loosest. -/
theorem parse_derives_nested :
    parse { tokenizer := wholeTexts } "a OR NOT (b c) d" =
      .ok (some (.either (.term ["a"])
        (.both (.negated (.both (.term ["b"]) (.term ["c"]))) (.term ["d"])))) := by
  have hlex : Lexeme.lex "a OR NOT (b c) d" = [.word "a"] ++ .disjunction ::
      ((.negation :: .opening :: ([.word "b"] ++ [.word "c"] ++ [.closing])) ++ [.word "d"]) := by
    decide +kernel
  have hword : ∀ text, Derives (word { tokenizer := wholeTexts }) .negation [.word text]
      (.term [text]) := by
    intro text
    refine .plain (.word ?_)
    unfold word
    cases stem? text <;> rfl
  refine ((parse_derives _ _ fun _ _ => ⟨_, rfl⟩).2.1 _).2 ?_
  rw [hlex]
  have hgroup := (Derives.adjoined (hword "b").operand (hword "c")).alternative.group
  exact (hword "a").operand.alternative.either (hgroup.plain.negated.operand.adjoined (hword "d"))

end QueryParser
end Concordance
