/-!
# JSON values

A JSON value keeps a number as it is written, since the same digits may be wanted
as a whole number or as a floating-point number, and the members of an object in
the order and as often as they are written.
-/

namespace Concordance

/-- A number as it is written in JSON. -/
structure JsonNumber where
  negative : Bool := false
  /-- The digits before the point. -/
  whole : List Nat
  /-- The digits after the point, if there is one. -/
  fraction : Option (List Nat) := none
  /-- The exponent, if there is one. -/
  exponent : Option Int := none
deriving DecidableEq, Repr

/-- A JSON value. -/
inductive JsonValue where
  | null
  | bool (value : Bool)
  | number (value : JsonNumber)
  | text (value : String)
  | array (items : List JsonValue)
  | object (members : List (String × JsonValue))
deriving Repr, Inhabited

namespace JsonNumber

/-- The number that digits stand for. -/
def ofDigits (digits : List Nat) : Nat :=
  digits.foldl (fun value digit => 10 * value + digit) 0

/-- The whole number that is written, if it has no sign, point or exponent and is below `limit`. -/
def toNat? (number : JsonNumber) (limit : Nat) : Option Nat :=
  if number.negative ∨ number.fraction.isSome ∨ number.exponent.isSome then none
  else
    let value := ofDigits number.whole
    if value < limit then some value else none

/-- The digits that fit a 64-bit number, together with the number of digits left over. -/
def significand (value : Nat) : List Nat → Nat × Nat
  | [] => (value, 0)
  | digit :: rest =>
      if 10 * value + digit < UInt64.size then significand (10 * value + digit) rest
      else (value, rest.length + 1)

/-- Scale a number by a power of ten, in steps that fit the range of floating-point numbers. There
is no result outside this range. -/
def scale (value : Float) (exponent : Int) : (steps : Nat) → Option Float
  | 0 => some value
  | steps + 1 =>
      if exponent.natAbs ≤ 308 then
        let power := Float.ofScientific (Nat.pow 10 exponent.natAbs) false 0
        if 0 ≤ exponent then
          let scaled := value * power
          if scaled.isInf then none else some scaled
        else some (value / power)
      else if value == 0.0 then some value
      else if 0 ≤ exponent then none
      else scale (value / Float.ofScientific (Nat.pow 10 308) false 0) (exponent + 308) steps

/-- The floating-point number that is written, unless it is too large. The digits that fit 64 bits
are taken as a whole number, which is then scaled. -/
def toFloat? (number : JsonNumber) : Option Float :=
  let (value, left) := significand 0 number.whole
  let (value, exponent) : Nat × Int :=
    match number.fraction with
    | none => (value, left)
    | some digits =>
        let (value, dropped) := if left = 0 then significand value digits
          else (value, digits.length)
        (value, left - (digits.length - dropped : Nat))
  let magnitude := scale value.toUInt64.toFloat (exponent + number.exponent.getD 0) 16
  magnitude.map fun magnitude => if number.negative then -magnitude else magnitude

end JsonNumber

namespace JsonValue

/-- The characters of a text inside quotes. -/
def escape (c : Char) : List Char :=
  if c = '"' then ['\\', '"']
  else if c = '\\' then ['\\', '\\']
  else if c = '\n' then ['\\', 'n']
  else if c = '\r' then ['\\', 'r']
  else if c = '\t' then ['\\', 't']
  else if c.toNat = 8 then ['\\', 'b']
  else if c.toNat = 12 then ['\\', 'f']
  else if c.toNat < 32 then
    ['\\', 'u', '0', '0'] ++ [Nat.digitChar (c.toNat / 16), Nat.digitChar (c.toNat % 16)]
  else [c]

/-- A text in quotes. -/
def quote (text : String) : String :=
  String.ofList ('"' :: text.toList.flatMap escape ++ ['"'])

end JsonValue

end Concordance
