import Missive.Numeric.Binary64

/-!
# Decimal text of numbers

A finite number is written with the fewest digits that read back as the same number; among the
decimals of that length the nearest is taken, and the larger one of two that are equally near.
The search is exact: the reals that round to a number form an interval, and for each length the
two decimals around the number are tested against it.

Two styles differ only in how very large and very small numbers are written.  A third form has
exactly one decimal place.
-/

namespace Missive

/-- Ten to a power. -/
def tenTo (exponent : Nat) : Nat := Nat.pow 10 exponent

/-- A positive decimal `digits * 10 ^ scale`. -/
structure Decimal where
  digits : Nat
  scale : Int
  deriving DecidableEq, Repr, Inhabited

namespace Decimal

/-- How many decimal digits a natural number has; zero has one. -/
def digitCount (n : Nat) : Nat := (Nat.toDigits 10 n).length

/-- The decimal order of the positive ratio `numerator / denominator`: the greatest `e` with
`10 ^ e ≤ numerator / denominator`.  Below one it is read off the inverse ratio. -/
def order (numerator denominator : Nat) : Int :=
  if denominator ≤ numerator then (digitCount (numerator / denominator) : Int) - 1
  else -(digitCount ((denominator + numerator - 1) / numerator - 1) : Int)

/-- The interval of reals that round to a positive finite number.  All three parts count units
of `2 ^ unit`; the ends belong to the interval when the significand is even. -/
structure RoundingInterval where
  low : Nat
  value : Nat
  high : Nat
  unit : Int
  closed : Bool

/-- The gap below a power of two is half the gap above it, except at the bottom of the range. -/
def RoundingInterval.of (x : Binary64) : RoundingInterval :=
  let significand := x.significand
  let gapBelow := if x.fraction = 0 ∧ 1 < x.exponentField then 1 else 2
  { low := 4 * significand - gapBelow
    value := 4 * significand
    high := 4 * significand + 2
    unit := x.exponent - 2
    closed := significand % 2 == 0 }

/-- Units of the interval expressed in units of `10 ^ scale`: the factor is
`numerator / denominator`. -/
def RoundingInterval.factor (interval : RoundingInterval) (scale : Int) : Nat × Nat :=
  (twoTo interval.unit.toNat * tenTo (-scale).toNat,
    twoTo (-interval.unit).toNat * tenTo scale.toNat)

/-- The candidate `candidate * 10 ^ scale` lies in the interval. -/
def RoundingInterval.contains (interval : RoundingInterval) (scale : Int) (candidate : Nat) :
    Bool :=
  let (numerator, denominator) := interval.factor scale
  let scaled := candidate * denominator
  if interval.closed then interval.low * numerator ≤ scaled && scaled ≤ interval.high * numerator
  else interval.low * numerator < scaled && scaled < interval.high * numerator

/-- The decimal with the given scale that lies in the interval and is nearest to the value. -/
def RoundingInterval.nearest? (interval : RoundingInterval) (scale : Int) : Option Decimal :=
  let (numerator, denominator) := interval.factor scale
  let below := interval.value * numerator / denominator
  let above := below + 1
  let belowIn := interval.contains scale below && 0 < below
  let aboveIn := interval.contains scale above
  let twiceRest := 2 * (interval.value * numerator % denominator)
  if belowIn && (!aboveIn || twiceRest < denominator) then some ⟨below, scale⟩
  else if aboveIn then some ⟨above, scale⟩
  else none

/-- Tries ever finer scales; `remaining` scales are left. -/
def RoundingInterval.shortestFrom (interval : RoundingInterval) (scale : Int) :
    (remaining : Nat) → Decimal
  | 0 => ⟨0, 0⟩
  | remaining + 1 =>
    match interval.nearest? scale with
    | some decimal => decimal
    | none => interval.shortestFrom (scale - 1) remaining

/-- The shortest decimal that reads back as the finite nonzero number `x`, up to sign.
Seventeen digits are always enough. -/
def shortest (x : Binary64) : Decimal :=
  let interval := RoundingInterval.of x
  let (numerator, denominator) := interval.factor 0
  interval.shortestFrom (order (interval.value * numerator) denominator) 18

/-- Digits as text without the zeros at the end, and the exponent of the first digit. -/
def normalized (decimal : Decimal) : List Char × Int :=
  let text := Nat.toDigits 10 decimal.digits
  let trimmed := (text.reverse.dropWhile (· == '0')).reverse
  (trimmed, decimal.scale + (text.length : Int) - 1)

end Decimal

/-! ## Styles -/

/-- The two ways in which a number is written. -/
inductive FloatStyle where
  /-- As in the text of a program: an exponent is used below `10 ^ -4` and from `10 ^ 16` on. -/
  | literal
  /-- As a running program prints it: never with an exponent. -/
  | printed
  deriving DecidableEq, Repr

namespace FloatStyle

/-- From this decimal order on an integral number has no decimal point. -/
def integralLimit : Int := 16

/-- The style writes a number of the given decimal order with an exponent. -/
def usesExponent (style : FloatStyle) (order : Int) : Bool :=
  match style with
  | .literal => order < -4 || integralLimit ≤ order
  | .printed => false

/-- Digits with a decimal point, the first digit having weight `10 ^ order`.  A number without
a fractional part gets `.0` below the integral limit. -/
def positional (digits : List Char) (order : Int) : String :=
  if order < 0 then
    "0." ++ String.ofList (List.replicate (-order - 1).toNat '0' ++ digits)
  else
    let wholeLength := order.toNat + 1
    let whole := digits.take wholeLength ++ List.replicate (wholeLength - digits.length) '0'
    let rest := digits.drop wholeLength
    let tail :=
      if rest.isEmpty then (if order < integralLimit then ['.', '0'] else [])
      else '.' :: rest
    String.ofList (whole ++ tail)

/-- Digits with a point after the first one, if others follow, and the exponent. -/
def scientific (digits : List Char) (order : Int) : String :=
  let body :=
    match digits with
    | first :: second :: rest => first :: '.' :: second :: rest
    | short => short
  String.ofList body ++ "e" ++ toString order

/-- The text of a number that is neither negative nor a NaN. -/
def unsignedText (style : FloatStyle) (x : Binary64) : String :=
  if x.isInfinite then "inf"
  else if x.isZero then "0.0"
  else
    let (digits, order) := (Decimal.shortest x).normalized
    if style.usesExponent order then scientific digits order else positional digits order

end FloatStyle

/-- The text of a number in a style. -/
def Binary64.text (x : Binary64) (style : FloatStyle) : String :=
  if x.isNaN then "NaN"
  else if x.isNegative then "-" ++ style.unsignedText x
  else style.unsignedText x

/-- A finite nonnegative number with exactly one decimal place, a tie going to the even digit. -/
def Binary64.oneDecimal (x : Binary64) : String :=
  let tenths := Binary64.divNearestEven (x.significand * twoTo x.exponent.toNat * 10)
    (twoTo (-x.exponent).toNat)
  toString (tenths / 10) ++ "." ++ toString (tenths % 10)

end Missive
