import Concordance.Json.Value

/-!
# Reading JSON

`JsonValue.parse?` reads a text that consists of one JSON value, with blanks
around and inside it. The functions below it take a value, or a part of one, off
the front of a list of characters; those that nest are bounded by the number of
characters there are.
-/

namespace Concordance

namespace JsonValue

/-- Whether a character may stand between the parts of a value. -/
def isBlank (c : Char) : Bool :=
  c = ' ' || c = '\n' || c = '\t' || c = '\r'

/-- Drop blanks. -/
def skipBlanks (chars : List Char) : List Char :=
  chars.dropWhile isBlank

/-- The value of a hexadecimal digit. -/
def hexDigit? (c : Char) : Option Nat :=
  if '0' ≤ c ∧ c ≤ '9' then some (c.toNat - '0'.toNat)
  else if 'a' ≤ c ∧ c ≤ 'f' then some (c.toNat - 'a'.toNat + 10)
  else if 'A' ≤ c ∧ c ≤ 'F' then some (c.toNat - 'A'.toNat + 10)
  else none

/-- The value of four hexadecimal digits. -/
def hexCode? : List Char → Option (Nat × List Char)
  | a :: b :: c :: d :: rest => do
      let a ← hexDigit? a
      let b ← hexDigit? b
      let c ← hexDigit? c
      let d ← hexDigit? d
      pure (((a * 16 + b) * 16 + c) * 16 + d, rest)
  | _ => none

/-- The character of an escape made of four hexadecimal digits, or of two such escapes that stand
for one character together. -/
def unicodeEscape? (chars : List Char) : Option (Char × List Char) := do
  let (code, rest) ← hexCode? chars
  if 0xD800 ≤ code ∧ code < 0xDC00 then
    match rest with
    | '\\' :: 'u' :: rest =>
        let (low, rest) ← hexCode? rest
        if 0xDC00 ≤ low ∧ low < 0xE000 then
          pure (Char.ofNat (0x10000 + (code - 0xD800) * 0x400 + (low - 0xDC00)), rest)
        else none
    | _ => none
  else if 0xDC00 ≤ code ∧ code < 0xE000 then none
  else pure (Char.ofNat code, rest)

/-- The character that a letter after a backslash stands for. -/
def simpleEscape? (c : Char) : Option Char :=
  match c with
  | '"' => some '"'
  | '\\' => some '\\'
  | '/' => some '/'
  | 'b' => some (Char.ofNat 8)
  | 'f' => some (Char.ofNat 12)
  | 'n' => some '\n'
  | 'r' => some '\r'
  | 't' => some '\t'
  | _ => none

/-- Take the rest of a text, up to its closing quote. The characters read so far are held last
first. -/
def takeText (read : List Char) : (fuel : Nat) → List Char → Option (String × List Char)
  | 0, _ => none
  | _ + 1, [] => none
  | fuel + 1, c :: rest =>
      if c = '"' then some (String.ofList read.reverse, rest)
      else if c = '\\' then
        match rest with
        | 'u' :: rest => do
            let (c, rest) ← unicodeEscape? rest
            takeText (c :: read) fuel rest
        | c :: rest => do
            let c ← simpleEscape? c
            takeText (c :: read) fuel rest
        | [] => none
      else if c.toNat < 32 then none
      else takeText (c :: read) fuel rest

/-- Take decimal digits. -/
def takeDigits (chars : List Char) : List Nat × List Char :=
  ((chars.takeWhile Char.isDigit).map fun c => c.toNat - '0'.toNat, chars.dropWhile Char.isDigit)

/-- Take the digits after a point, if there is one. -/
def takeFraction : List Char → Option (Option (List Nat) × List Char)
  | '.' :: rest =>
      match takeDigits rest with
      | ([], _) => none
      | (digits, rest) => some (some digits, rest)
  | chars => some (none, chars)

/-- Take an exponent, if there is one. -/
def takeExponent : List Char → Option (Option Int × List Char)
  | c :: rest =>
      if c = 'e' ∨ c = 'E' then
        let (negative, rest) :=
          match rest with
          | '-' :: rest => (true, rest)
          | '+' :: rest => (false, rest)
          | rest => (false, rest)
        match takeDigits rest with
        | ([], _) => none
        | (digits, rest) =>
            let value : Int := JsonNumber.ofDigits digits
            some (some (if negative then -value else value), rest)
      else some (none, c :: rest)
  | [] => some (none, [])

/-- Take a number. No digit follows a zero at its start. -/
def takeNumber (chars : List Char) : Option (JsonNumber × List Char) := do
  let (negative, chars) := match chars with
    | '-' :: rest => (true, rest)
    | chars => (false, chars)
  let (whole, rest) := takeDigits chars
  match whole with
  | [] => none
  | 0 :: _ :: _ => none
  | _ =>
      let (fraction, rest) ← takeFraction rest
      let (exponent, rest) ← takeExponent rest
      pure ({ negative, whole, fraction, exponent }, rest)

/-- Take these characters. -/
def takeWord (word : List Char) (chars : List Char) : Option (List Char) :=
  if word.isPrefixOf chars then some (chars.drop word.length) else none

mutual

/-- Take a value. -/
def takeValue : (fuel : Nat) → List Char → Option (JsonValue × List Char)
  | 0, _ => none
  | fuel + 1, chars =>
      match skipBlanks chars with
      | '"' :: rest => do
          let (value, rest) ← takeText [] (rest.length + 1) rest
          pure (.text value, rest)
      | '[' :: rest =>
          match skipBlanks rest with
          | ']' :: rest => some (.array [], rest)
          | rest => do
              let (items, rest) ← takeItems fuel rest
              pure (.array items, rest)
      | '{' :: rest =>
          match skipBlanks rest with
          | '}' :: rest => some (.object [], rest)
          | rest => do
              let (members, rest) ← takeMembers fuel rest
              pure (.object members, rest)
      | 'n' :: rest => (takeWord ['u', 'l', 'l'] rest).map fun rest => (.null, rest)
      | 't' :: rest => (takeWord ['r', 'u', 'e'] rest).map fun rest => (.bool true, rest)
      | 'f' :: rest => (takeWord ['a', 'l', 's', 'e'] rest).map fun rest => (.bool false, rest)
      | rest => (takeNumber rest).map fun (value, rest) => (.number value, rest)

/-- Take the items of an array and its closing bracket. -/
def takeItems : (fuel : Nat) → List Char → Option (List JsonValue × List Char)
  | 0, _ => none
  | fuel + 1, chars => do
      let (item, rest) ← takeValue fuel chars
      match skipBlanks rest with
      | ',' :: rest => do
          let (items, rest) ← takeItems fuel rest
          pure (item :: items, rest)
      | ']' :: rest => pure ([item], rest)
      | _ => none

/-- Take the members of an object and its closing brace. -/
def takeMembers : (fuel : Nat) → List Char → Option (List (String × JsonValue) × List Char)
  | 0, _ => none
  | fuel + 1, chars => do
      match skipBlanks chars with
      | '"' :: rest => do
          let (name, rest) ← takeText [] (rest.length + 1) rest
          match skipBlanks rest with
          | ':' :: rest => do
              let (value, rest) ← takeValue fuel rest
              match skipBlanks rest with
              | ',' :: rest => do
                  let (members, rest) ← takeMembers fuel rest
                  pure ((name, value) :: members, rest)
              | '}' :: rest => pure ([(name, value)], rest)
              | _ => none
          | _ => none
      | _ => none

end

/-- The value that a text consists of. -/
def parse? (text : String) : Option JsonValue :=
  let chars := text.toList
  match takeValue (chars.length + 1) chars with
  | some (value, rest) => if (skipBlanks rest).isEmpty then some value else none
  | none => none

end JsonValue

end Concordance
