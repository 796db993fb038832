/-!
# Sets of characters given by ranges of code points
-/

namespace Missive.Text

/-- A set of characters as a list of ranges of code points in ascending order, both ends of each
included. -/
abbrev CodeRanges := List (Nat × Nat)

/-- The character lies in one of the ranges.  As they ascend, the search ends at the first range
that starts behind the character. -/
def CodeRanges.contains : CodeRanges → Char → Bool
  | [], _ => false
  | (first, last) :: rest, c =>
    if c.toNat < first then false else decide (c.toNat ≤ last) || CodeRanges.contains rest c

end Missive.Text
