/-!
# Shortest decimals

The decimal digits that stand for a floating-point number are the fewest that
read back as that number; of several equally short ones the nearest counts. The
number is taken apart into `significand * 2 ^ exponent`, and the real numbers
that round to it form an interval around it. `shortest` tries ever finer decimal
grids until one of the two grid points next to the number lies in the interval.
-/

namespace Concordance

/-- A decimal number: the digits of `digits`, with the decimal point `point` places after the
first one's left. The number is `0.digits * 10 ^ point`. -/
structure Decimal where
  digits : List Nat
  point : Int
deriving DecidableEq, Repr

namespace Decimal

/-- The decimal digits of a number, most significant first. -/
def digitsOf (value : Nat) : List Nat :=
  (Nat.toDigits 10 value).map fun digit => digit.toNat - '0'.toNat

/-- The decimal of `value * 10 ^ exponent`, without zeros at the end. -/
def ofScaled (value : Nat) (exponent : Int) : Decimal :=
  let digits := digitsOf value
  ⟨(digits.reverse.dropWhile (· == 0)).reverse, exponent + digits.length⟩

/-- A positive rational number. -/
structure Ratio where
  numerator : Nat
  denominator : Nat

namespace Ratio

/-- `value * 2 ^ exponent`. -/
def scaled (value : Nat) (exponent : Int) : Ratio :=
  if 0 ≤ exponent then ⟨value <<< exponent.toNat, 1⟩ else ⟨value, 1 <<< (-exponent).toNat⟩

/-- Divide by `10 ^ exponent`. -/
def shift (ratio : Ratio) (exponent : Int) : Ratio :=
  if 0 ≤ exponent then ⟨ratio.numerator, ratio.denominator * Nat.pow 10 exponent.toNat⟩
  else ⟨ratio.numerator * Nat.pow 10 (-exponent).toNat, ratio.denominator⟩

/-- Whether one number is less than another. -/
def less (first second : Ratio) : Bool :=
  first.numerator * second.denominator < second.numerator * first.denominator

/-- The whole number below. -/
def floor (ratio : Ratio) : Nat :=
  ratio.numerator / ratio.denominator

end Ratio

/-- A number together with the interval of the numbers that round to it. -/
structure Rounding where
  value : Ratio
  low : Ratio
  high : Ratio
  /-- Whether the ends belong to the interval. -/
  closed : Bool

/-- Whether a whole number lies in the interval, after everything has been divided by a power of
ten. -/
def Rounding.holds (rounding : Rounding) (exponent : Int) (candidate : Nat) : Bool :=
  let point : Ratio := ⟨candidate, 1⟩
  let low := rounding.low.shift exponent
  let high := rounding.high.shift exponent
  if rounding.closed then !point.less low && !high.less point
  else low.less point && point.less high

/-- The interval of a binary number. The numbers below a power of two lie closer together than
those above it. -/
def Rounding.ofBinary (significand : Nat) (exponent : Int) (narrowBelow : Bool) : Rounding :=
  { value := Ratio.scaled significand exponent
    low :=
      if narrowBelow then Ratio.scaled (4 * significand - 1) (exponent - 2)
      else Ratio.scaled (2 * significand - 1) (exponent - 1)
    high := Ratio.scaled (2 * significand + 1) (exponent - 1)
    closed := significand % 2 = 0 }

/-- The point of the grid `10 ^ exponent` that stands for the number, if one does. -/
def candidate (rounding : Rounding) (exponent : Int) : Option Nat :=
  let scaled := rounding.value.shift exponent
  let below := scaled.floor
  let above := below + 1
  let twice : Ratio := ⟨2 * scaled.numerator, scaled.denominator⟩
  let middle : Ratio := ⟨below + above, 1⟩
  let (nearer, farther) :=
    if twice.less middle || (!middle.less twice && below % 2 = 0) then (below, above)
    else (above, below)
  if nearer ≠ 0 ∧ rounding.holds exponent nearer then some nearer
  else if farther ≠ 0 ∧ rounding.holds exponent farther then some farther
  else none

/-- Try the grids from `10 ^ exponent` on, each ten times finer than the one before. -/
def search (rounding : Rounding) (exponent : Int) : (grids : Nat) → Decimal
  | 0 => ofScaled rounding.value.floor 0
  | grids + 1 =>
      match candidate rounding exponent with
      | some value => ofScaled value exponent
      | none => search rounding (exponent - 1) grids

/-- The shortest decimal of a positive binary number. The first grid tried is too coarse. -/
def shortest (significand : Nat) (exponent : Int) (narrowBelow : Bool) : Decimal :=
  let rounding := Rounding.ofBinary significand exponent narrowBelow
  let coarse : Int := ((Nat.log2 significand : Int) + exponent) * 30103 / 100000 + 2
  search rounding coarse 24

/-- The shortest decimal of a positive finite number. -/
def ofFloat (value : Float) : Decimal :=
  let bits : Nat := value.toBits.toNat
  let fraction : Nat := bits % 0x10000000000000
  let scale : Nat := bits / 0x10000000000000 % 0x800
  if scale = 0 then shortest fraction (-1074) false
  else shortest (fraction + 0x10000000000000) ((scale : Int) - 1075) (fraction = 0 && scale > 1)

end Decimal

/-- How a decimal is laid out: with the point inside or next to the digits if its place is in a
certain range, and with an exponent otherwise. -/
structure DecimalLayout where
  leastPoint : Int
  mostPoint : Int

namespace DecimalLayout

/-- The text of digits. -/
def digitText (digits : List Nat) : String :=
  String.ofList (digits.map fun digit => Char.ofNat (digit + '0'.toNat))

/-- The text of a decimal. -/
def text (layout : DecimalLayout) (decimal : Decimal) : String :=
  let count : Int := decimal.digits.length
  if layout.leastPoint ≤ decimal.point ∧ decimal.point ≤ layout.mostPoint then
    if decimal.point ≤ 0 then
      "0." ++ digitText (List.replicate (-decimal.point).toNat 0 ++ decimal.digits)
    else if count ≤ decimal.point then
      digitText (decimal.digits ++ List.replicate (decimal.point - count).toNat 0) ++ ".0"
    else
      digitText (decimal.digits.take decimal.point.toNat) ++ "." ++
        digitText (decimal.digits.drop decimal.point.toNat)
  else
    let exponent := "e" ++ toString (decimal.point - 1)
    match decimal.digits with
    | [digit] => digitText [digit] ++ exponent
    | digits => digitText (digits.take 1) ++ "." ++ digitText (digits.drop 1) ++ exponent

/-- The text of a finite number, with a sign if it is negative, be it zero. -/
def floatText (layout : DecimalLayout) (value : Float) : String :=
  let sign := if value.toBits >>> 63 = 1 then "-" else ""
  if value == 0.0 then sign ++ "0.0" else sign ++ layout.text (Decimal.ofFloat value.abs)

end DecimalLayout

end Concordance
