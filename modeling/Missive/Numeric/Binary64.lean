/-!
# Binary64 words

A floating-point number is kept as its 64-bit word, so that two numbers are equal exactly when
their words are, every word survives being stored and read back, and equality is decidable.

Comparison, conversion from an integer, the roundings to an integer and the remainder are
computed on the fields of the word with exact arithmetic.  The four operations, the square root
and the power are those of the machine; the choice among several NaN words is made here.
-/

namespace Missive

/-- Two to a power. -/
def twoTo (exponent : Nat) : Nat := Nat.pow 2 exponent

/-- A floating-point number in the binary64 format, given by its word. -/
structure Binary64 where
  /-- Sign (1 bit), biased exponent (11 bits) and fraction (52 bits), from the top. -/
  bits : UInt64
  deriving DecidableEq, Hashable, Repr, Inhabited

namespace Binary64

/-! ## Fields -/

/-- The sign bit is set. -/
def isNegative (x : Binary64) : Bool := x.bits >>> 63 == 1

/-- The word without its sign bit. -/
def magnitudeBits (x : Binary64) : UInt64 := x.bits &&& 0x7FFFFFFFFFFFFFFF

/-- The biased exponent: 0 for zeros and subnormal numbers, 2047 for infinities and NaNs. -/
def exponentField (x : Binary64) : Nat := (x.magnitudeBits >>> 52).toNat

/-- The trailing 52 bits. -/
def fraction (x : Binary64) : Nat := (x.bits &&& 0xFFFFFFFFFFFFF).toNat

/-- The word encodes no number. -/
def isNaN (x : Binary64) : Bool := x.magnitudeBits > 0x7FF0000000000000

/-- The word encodes one of the two infinities. -/
def isInfinite (x : Binary64) : Bool := x.magnitudeBits == 0x7FF0000000000000

/-- The word encodes a number of finite size. -/
def isFinite (x : Binary64) : Bool := x.magnitudeBits < 0x7FF0000000000000

/-- The word encodes zero, with either sign. -/
def isZero (x : Binary64) : Bool := x.magnitudeBits == 0

/-- A finite number has size `significand * 2 ^ exponent`. -/
def significand (x : Binary64) : Nat :=
  if x.exponentField = 0 then x.fraction else twoTo 52 + x.fraction

/-- The power of two that scales the significand of a finite number. -/
def exponent (x : Binary64) : Int :=
  if x.exponentField = 0 then -1074 else (x.exponentField : Int) - 1075

/-! ## Sign -/

/-- Positive zero. -/
def zero : Binary64 := ⟨0⟩

/-- The number with its sign turned. -/
def neg (x : Binary64) : Binary64 := ⟨x.bits ^^^ 0x8000000000000000⟩

/-- The number with its sign cleared. -/
def abs (x : Binary64) : Binary64 := ⟨x.magnitudeBits⟩

/-! ## Order -/

/-- An integer that grows with the number and is the same for both zeros.  The words of
nonnegative numbers are ordered as the numbers are, so the word itself serves, negated for a
negative number. -/
def orderKey (x : Binary64) : Int :=
  if x.isNegative then -(x.magnitudeBits.toNat : Int) else x.magnitudeBits.toNat

/-- Compares two numbers; a NaN cannot be compared. -/
def compare? (x y : Binary64) : Option Ordering :=
  if x.isNaN || y.isNaN then none else some (compare x.orderKey y.orderKey)

/-- Numeric equality: both zeros are equal and a NaN differs from everything. -/
def numericEq (x y : Binary64) : Bool := x.compare? y == some .eq

/-- Numeric strict order, false at a NaN. -/
def lt (x y : Binary64) : Bool := x.compare? y == some .lt

/-- Numeric order, false at a NaN. -/
def le (x y : Binary64) : Bool := x.lt y || x.numericEq y

/-! ## Conversion to and from integers -/

/-- Divides and rounds to the nearest integer, a half to the even one. -/
def divNearestEven (numerator denominator : Nat) : Nat :=
  let quotient := numerator / denominator
  let twice := 2 * (numerator % denominator)
  if twice < denominator then quotient
  else if denominator < twice then quotient + 1
  else quotient + quotient % 2

/-- The word of the number nearest to a positive integer below `2 ^ 1023`, a tie going to the
even significand.  A significand that rounds up to `2 ^ 53` carries into the exponent. -/
def wordOfNat (n : Nat) : Nat :=
  if n = 0 then 0
  else
    let top := n.log2
    let scaled :=
      if top ≤ 52 then n * twoTo (52 - top) else divNearestEven n (twoTo (top - 52))
    (1022 + top) * twoTo 52 + scaled

/-- The number nearest to an integer, a tie going to the even significand. -/
def ofInt (n : Int) : Binary64 :=
  let magnitude : Binary64 := ⟨UInt64.ofNat (wordOfNat n.natAbs)⟩
  if n < 0 then magnitude.neg else magnitude

/-- How a number with a fractional part becomes an integer. -/
inductive Rounding where
  /-- Toward zero. -/
  | truncate
  /-- Downward. -/
  | floor
  /-- Upward. -/
  | ceiling
  /-- To the nearest integer, a half away from zero. -/
  | nearest
  deriving DecidableEq, Repr

/-- Rounds the ratio of two natural numbers, the second positive, taken with a sign. -/
def Rounding.ratio (rounding : Rounding) (negative : Bool) (numerator denominator : Nat) : Int :=
  let quotient := numerator / denominator
  let exact := numerator % denominator = 0
  let size :=
    match rounding with
    | .truncate => quotient
    | .floor => if negative && !exact then quotient + 1 else quotient
    | .ceiling => if negative || exact then quotient else quotient + 1
    | .nearest => (2 * numerator + denominator) / (2 * denominator)
  if negative then -(size : Int) else size

/-- The integer to which a finite number is rounded, and none for an infinity or a NaN. -/
def toInt? (x : Binary64) (rounding : Rounding) : Option Int :=
  if x.isFinite then
    some (rounding.ratio x.isNegative (x.significand * twoTo x.exponent.toNat)
      (twoTo (-x.exponent).toNat))
  else none

/-- The number is finite and has no fractional part. -/
def isIntegral (x : Binary64) : Bool :=
  x.isFinite && x.significand % twoTo (-x.exponent).toNat == 0

/-! ## Arithmetic -/

/-- The NaN that an operation on numbers yields when it has no result. -/
def undefinedResult : Binary64 := ⟨0xFFF8000000000000⟩

/-- A NaN operand is passed on with its quiet bit set. -/
def quieted (x : Binary64) : Binary64 := ⟨x.bits ||| 0x0008000000000000⟩

/-- The word of a machine number, with one word for every missing result. -/
def ofFloat (result : Float) : Binary64 :=
  if result.isNaN then undefinedResult else ⟨result.toBits⟩

/-- Applies an operation of the machine; the first NaN operand decides the result. -/
def combine (operation : Float → Float → Float) (x y : Binary64) : Binary64 :=
  if x.isNaN then x.quieted
  else if y.isNaN then y.quieted
  else ofFloat (operation (Float.ofBits x.bits) (Float.ofBits y.bits))

/-- Sum, rounded to nearest. -/
def add : Binary64 → Binary64 → Binary64 := combine (· + ·)

/-- Difference, rounded to nearest. -/
def sub : Binary64 → Binary64 → Binary64 := combine (· - ·)

/-- Product, rounded to nearest. -/
def mul : Binary64 → Binary64 → Binary64 := combine (· * ·)

/-- Quotient, rounded to nearest. -/
def div : Binary64 → Binary64 → Binary64 := combine (· / ·)

/-- Square root, rounded to nearest. -/
def sqrt (x : Binary64) : Binary64 :=
  if x.isNaN then x.quieted else ofFloat (Float.ofBits x.bits).sqrt

/-- The greatest integral number that is not above `x`; infinities are kept. -/
def floor (x : Binary64) : Binary64 :=
  if x.isNaN then x.quieted else ofFloat (Float.ofBits x.bits).floor

/-- The word is a NaN whose quiet bit is not set. -/
def isSignaling (x : Binary64) : Bool := x.isNaN && x.quieted != x

/-- The number is an odd integer. -/
def isOdd (x : Binary64) : Bool :=
  match x.toInt? .truncate with
  | some n => x.isIntegral && n % 2 == 1
  | none => false

/-- Power.  The power of one, and the zeroth power, are one even where the other operand is a
quiet NaN.  An odd power of a NaN base is that NaN without its sign. -/
def pow (x y : Binary64) : Binary64 :=
  let one := ofInt 1
  if x = one && !y.isSignaling || y.isZero && !x.isSignaling then one
  else if x.isNaN && y.isOdd then x.quieted.abs
  else combine (fun base exponent => base.pow exponent) x y

/-- The number given by a sign, a significand and a power of two at most its own exponent
range, when `significand < 2 ^ 53` or the value is otherwise representable without rounding. -/
def ofDyadic (negative : Bool) (significand : Nat) (exponent : Int) : Binary64 :=
  let magnitude :=
    if significand = 0 then 0
    else
      let top := significand.log2
      let field : Int := exponent + top + 1023
      if field ≤ 0 then significand * twoTo (exponent + 1074).toNat
      else (field.toNat - 1) * twoTo 52 +
        significand * twoTo (52 - top) / twoTo (top - 52)
  let word : Binary64 := ⟨UInt64.ofNat magnitude⟩
  if negative then word.neg else word

/-- The remainder of the division truncated toward zero.  It has the sign of `x`, is exact, and
is undefined for an infinite `x` or a zero `y`. -/
def rem (x y : Binary64) : Binary64 :=
  if x.isNaN then x.quieted
  else if y.isNaN then y.quieted
  else if x.isInfinite || y.isZero then undefinedResult
  else if y.isInfinite then x
  else
    let least := min x.exponent y.exponent
    let dividend := x.significand * twoTo (x.exponent - least).toNat
    let divisor := y.significand * twoTo (y.exponent - least).toNat
    ofDyadic x.isNegative (dividend % divisor) least

end Binary64

end Missive
