import Concordance.Pattern.Pattern

/-!
# Reading patterns

A pattern is written as alternatives separated by `|`. An alternative is a
sequence of items: plain characters, sets in brackets, escapes, and groups in
parentheses. Each item may be followed by `*`, `+`, `?` or a count in braces, and
this in turn by a `?` that makes it lazy. `Pattern.parse?` fails on a text that is
not a pattern. Nested parts are bounded by the number of characters.
-/

namespace Concordance

namespace Pattern

/-- What a set of characters or an escape in a pattern may be. -/
inductive SetItem where
  | single (c : Char)
  | class (set : CharacterSet)

/-- The set of an item. -/
def SetItem.toSet : SetItem → CharacterSet
  | .single c => .single c
  | .class set => set

/-- The value of a hexadecimal digit. -/
def hexValue? (c : Char) : Option Nat :=
  if '0' ≤ c ∧ c ≤ '9' then some (c.toNat - '0'.toNat)
  else if 'a' ≤ c ∧ c ≤ 'f' then some (c.toNat - 'a'.toNat + 10)
  else if 'A' ≤ c ∧ c ≤ 'F' then some (c.toNat - 'A'.toNat + 10)
  else none

/-- The character whose code point is given by hexadecimal digits. -/
def characterOfHex? (digits : List Char) : Option Char := do
  let values ← digits.mapM hexValue?
  let code := values.foldl (fun code value => 16 * code + value) 0
  if values.isEmpty ∨ code > 0x10FFFF ∨ (0xD800 ≤ code ∧ code < 0xE000) then none
  else some (Char.ofNat code)

/-- Take a code point of `width` digits, or of any number of digits in braces. -/
def takeCode (width : Nat) : List Char → Option (SetItem × List Char)
  | '{' :: rest =>
      match rest.dropWhile (· ≠ '}') with
      | _ :: later => do
          let c ← characterOfHex? (rest.takeWhile (· ≠ '}'))
          pure (.single c, later)
      | [] => none
  | chars =>
      let digits := chars.take width
      if digits.length = width then do
        let c ← characterOfHex? digits
        pure (.single c, chars.drop width)
      else none

/-- Take what follows a backslash. -/
def takeEscape : List Char → Option (SetItem × List Char)
  | [] => none
  | 'w' :: rest => some (.class .word, rest)
  | 'W' :: rest => some (.class (.complement .word), rest)
  | 'd' :: rest => some (.class .digit, rest)
  | 'D' :: rest => some (.class (.complement .digit), rest)
  | 's' :: rest => some (.class .space, rest)
  | 'S' :: rest => some (.class (.complement .space), rest)
  | 'n' :: rest => some (.single '\n', rest)
  | 'r' :: rest => some (.single '\r', rest)
  | 't' :: rest => some (.single '\t', rest)
  | 'a' :: rest => some (.single (Char.ofNat 7), rest)
  | 'v' :: rest => some (.single (Char.ofNat 11), rest)
  | 'f' :: rest => some (.single (Char.ofNat 12), rest)
  | 'x' :: rest => takeCode 2 rest
  | 'u' :: rest => takeCode 4 rest
  | 'U' :: rest => takeCode 8 rest
  | c :: rest =>
      if c.toNat < 128 && !c.isAlphanum && c ≠ '<' && c ≠ '>' then some (.single c, rest) else none

/-- Whether two characters would combine sets, which patterns do not have. -/
def combinesSets (first : Char) (rest : List Char) : Bool :=
  (first = '&' || first = '-' || first = '~') && rest.head? = some first

/-- Take one item of a set in brackets. -/
def takeSetItem : List Char → Option (SetItem × List Char)
  | '\\' :: rest => takeEscape rest
  | c :: rest => if combinesSets c rest then none else some (.single c, rest)
  | [] => none

/-- Take a range of a set in brackets, or a single item. -/
def takeSetRange (chars : List Char) : Option (CharacterSet × List Char) := do
  let (first, rest) ← takeSetItem chars
  match rest with
  | '-' :: later =>
      match later with
      | ']' :: _ => pure (first.toSet, rest)
      | [] => none
      | _ => do
          let (last, rest) ← takeSetItem later
          match first, last with
          | .single first, .single last =>
              if first ≤ last then pure (.range first last, rest) else none
          | _, _ => none
  | _ => pure (first.toSet, rest)

mutual

/-- Take a set after its opening bracket. -/
def takeSet : (fuel : Nat) → List Char → Option (CharacterSet × List Char)
  | 0, _ => none
  | fuel + 1, chars =>
      let (negated, chars) := match chars with
        | '^' :: rest => (true, rest)
        | chars => (false, chars)
      let hyphens := chars.takeWhile (· = '-')
      let rest := chars.dropWhile (· = '-')
      let (set, rest) : CharacterSet × List Char :=
        if hyphens.isEmpty then
          match rest with
          | ']' :: rest => (.single ']', rest)
          | rest => (.none, rest)
        else (.single '-', rest)
      (takeSetItems fuel set rest).map fun (set, rest) =>
        (if negated then .complement set else set, rest)

/-- Take the items of a set up to its closing bracket and add them to `found`. -/
def takeSetItems : (fuel : Nat) → (found : CharacterSet) → List Char →
    Option (CharacterSet × List Char)
  | 0, _, _ => none
  | _ + 1, _, [] => none
  | _ + 1, found, ']' :: rest => some (found, rest)
  | fuel + 1, found, '[' :: rest => do
      let (inner, rest) ← takeSet fuel rest
      takeSetItems fuel (.union found inner) rest
  | fuel + 1, found, chars => do
      let (set, rest) ← takeSetRange chars
      takeSetItems fuel (.union found set) rest

end

/-- Take the name of a group, up to the closing bracket. -/
def takeName (chars : List Char) : Option (String × List Char) :=
  let name := chars.takeWhile (· ≠ '>')
  match name, chars.dropWhile (· ≠ '>') with
  | first :: others, _ :: rest =>
      if (first.isAlpha || first = '_') &&
          others.all (fun c => c.isAlphanum || c = '_' || c = '.' || c = '[' || c = ']') then
        some (String.ofList name, rest)
      else none
  | _, _ => none

/-- Take what may stand at the front of a group. A name must not be used twice. -/
def takeGroupStart (names : List String) : List Char → Option (List String × List Char)
  | '?' :: ':' :: rest => some (names, rest)
  | '?' :: 'P' :: '<' :: rest | '?' :: '<' :: rest => do
      let (name, rest) ← takeName rest
      if names.contains name then none else some (name :: names, rest)
  | '?' :: _ => none
  | rest => some (names, rest)

/-- Take a decimal number, if there is one, and the blanks around it. -/
def takeCount (chars : List Char) : Option Nat × List Char :=
  let chars := chars.dropWhile isWhitespace
  let digits := chars.takeWhile Char.isDigit
  let rest := (chars.dropWhile Char.isDigit).dropWhile isWhitespace
  if digits.isEmpty then (none, rest)
  else
    (some (digits.foldl (fun value c => 10 * value + (c.toNat - '0'.toNat)) 0), rest)

/-- Take the bounds of a repetition after the opening brace. -/
def takeBounds (chars : List Char) : Option ((Nat × Option Nat) × List Char) :=
  match takeCount chars with
  | (some least, '}' :: rest) => some ((least, some least), rest)
  | (some least, ',' :: rest) =>
      match takeCount rest with
      | (none, '}' :: rest) => some ((least, none), rest)
      | (some most, '}' :: rest) => if least ≤ most then some ((least, some most), rest) else none
      | _ => none
  | _ => none

/-- Take the mark of a lazy repetition, if there is one. -/
def takeGreed : List Char → Bool × List Char
  | '?' :: rest => (false, rest)
  | rest => (true, rest)

/-- Repeat a pattern at least `least` times, and at most `most` times if there is such a bound. -/
def repeatBetween (inner : Pattern) (greedy : Bool) (least : Nat) : (most : Option Nat) → Pattern
  | some most =>
      if most = least then times inner least
      else if least = 0 then atMost inner greedy most
      else both (times inner least) (atMost inner greedy (most - least))
  | none =>
      match least with
      | 0 => many inner greedy
      | 1 => repeated inner greedy
      | least + 1 => both (times inner least) (repeated inner greedy)

/-- One item after another. The items are held last first. -/
def sequence : (items : List Pattern) → Pattern
  | [] => empty
  | [item] => item
  | item :: earlier => both (sequence earlier) item

mutual

/-- Take alternatives, up to a closing parenthesis or the end. -/
def takeAlternatives : (fuel : Nat) → (names : List String) → List Char →
    Option (Pattern × List String × List Char)
  | 0, _, _ => none
  | fuel + 1, names, chars => do
      let (first, names, rest) ← takeItems fuel names [] chars
      match rest with
      | '|' :: rest => do
          let (others, names, rest) ← takeAlternatives fuel names rest
          pure (either first others, names, rest)
      | rest => pure (first, names, rest)

/-- Take the items of an alternative. Those taken so far are held last first. -/
def takeItems : (fuel : Nat) → (names : List String) → (items : List Pattern) → List Char →
    Option (Pattern × List String × List Char)
  | 0, _, _, _ => none
  | _ + 1, names, items, [] => some (sequence items, names, [])
  | fuel + 1, names, items, c :: rest =>
      match c with
      | '|' | ')' => some (sequence items, names, c :: rest)
      | '(' => do
          let (names, rest) ← takeGroupStart names rest
          let (inner, names, rest) ← takeAlternatives fuel names rest
          match rest with
          | ')' :: rest => takeItems fuel names (inner :: items) rest
          | _ => none
      | '[' => do
          let (set, rest) ← takeSet fuel rest
          takeItems fuel names (one set :: items) rest
      | '\\' => do
          let (item, rest) ← takeEscape rest
          takeItems fuel names (one item.toSet :: items) rest
      | '.' => takeItems fuel names (one (.complement (.single '\n')) :: items) rest
      | '^' | '$' => none
      | '*' | '+' | '?' | '{' =>
          match items with
          | [] => none
          | item :: earlier =>
              if c = '{' then do
                let ((least, most), rest) ← takeBounds rest
                let (greedy, rest) := takeGreed rest
                takeItems fuel names (repeatBetween item greedy least most :: earlier) rest
              else
                let (greedy, rest) := takeGreed rest
                let again :=
                  if c = '*' then many item greedy
                  else if c = '+' then repeated item greedy
                  else optional item greedy
                takeItems fuel names (again :: earlier) rest
      | c => takeItems fuel names (one (.single c) :: items) rest

end

/-- The pattern that a text describes. -/
def parse? (text : String) : Option Pattern :=
  let chars := text.toList
  match takeAlternatives (3 * chars.length + 3) [] chars with
  | some (pattern, _, []) => some pattern
  | _ => none

end Pattern

end Concordance
