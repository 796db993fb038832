/-!
# Checked integer arithmetic

Integers have 64 bits.  An operation computes the exact result and answers it if it fits.
-/

namespace Missive.Checked

/-- The integer as a 64-bit word, if it fits. -/
def fits? (n : Int) : Option Int64 :=
  if -0x8000000000000000 ≤ n ∧ n < 0x8000000000000000 then some (Int64.ofInt n) else none

/-- Sum. -/
def add? (x y : Int64) : Option Int64 := fits? (x.toInt + y.toInt)

/-- Difference. -/
def sub? (x y : Int64) : Option Int64 := fits? (x.toInt - y.toInt)

/-- Product. -/
def mul? (x y : Int64) : Option Int64 := fits? (x.toInt * y.toInt)

/-- Quotient, rounded toward zero. -/
def quotient? (x y : Int64) : Option Int64 := fits? (x.toInt.tdiv y.toInt)

/-- Exactly one of the two numbers is negative. -/
def signsDiffer (x y : Int64) : Bool := (x < 0) != (y < 0)

/-- Quotient, rounded downward: where the signs differ and something remains, one less than the
quotient rounded toward zero. -/
def floorQuotient? (x y : Int64) : Option Int64 := do
  let quotient ← quotient? x y
  if x % y ≠ 0 ∧ signsDiffer x y then sub? quotient 1 else return quotient

/-- The remainder with the sign of `x`.  It is answered only where the quotient fits. -/
def remainder? (x y : Int64) : Option Int64 := do
  let _ ← quotient? x y
  fits? (x.toInt.tmod y.toInt)

/-- The remainder with the sign of `y`: a remainder of the other sign is moved by `y`.  It is
answered only where the quotient fits. -/
def modulus? (x y : Int64) : Option Int64 := do
  let remainder ← remainder? x y
  if remainder ≠ 0 ∧ signsDiffer remainder y then add? remainder y else return remainder

/-- The number with its sign turned. -/
def negate? (x : Int64) : Option Int64 := fits? (-x.toInt)

/-- The size of the number. -/
def magnitude? (x : Int64) : Option Int64 := fits? x.toInt.natAbs

/-- The power with a natural exponent.  The powers of 0, 1 and -1 depend only on the parity of a
positive exponent, and any other base outgrows 64 bits at the exponent 64. -/
def power? (x : Int64) (exponent : Nat) : Option Int64 :=
  let base := x.toInt
  if base.natAbs ≤ 1 then fits? (base.pow (if exponent = 0 then 0 else 2 - exponent % 2))
  else if 63 < exponent then none
  else fits? (base.pow exponent)

end Missive.Checked
