/-!
# Decimal digits

Natural numbers that are written with the ten digits.
-/

namespace Missive

namespace Text

/-- The number that one or more digits spell. -/
def ofDigits? (digits : List Char) : Option Nat :=
  if digits.isEmpty || !digits.all Char.isDigit then none
  else some (digits.foldl (fun n c => 10 * n + (c.toNat - '0'.toNat)) 0)

end Text

end Missive
