/-!
# Crashes

Some things end the compiler or the machine themselves.  Nothing is reported then in the way of an
error, and nothing that was under way goes on.
-/

namespace Missive

/-- What ends the compiler or the machine. -/
inductive Crash where
  /-- The count of a packed operand does not fit into its byte. -/
  | countTooLarge
  /-- The index of a packed operand does not fit into the bits above the count. -/
  | indexTooLarge
  /-- A dictionary is looked into while an entry of it is being stored or removed. -/
  | alreadyBorrowed
  /-- A comparison needs its own outcome, so that it never comes to an end. -/
  | endlessComparison
  /-- A list is to hold more items than memory can ever have room for. -/
  | capacityOverflow
  deriving DecidableEq, Repr

/-- What is written when the program goes down. -/
def Crash.message : Crash → String
  | .countTooLarge => "assertion failed: count <= MAX_PACKED_COUNT"
  | .indexTooLarge => "assertion failed: index <= MAX_PACKED_INDEX"
  | .alreadyBorrowed => "already mutably borrowed"
  | .endlessComparison => "stack overflow"
  | .capacityOverflow => "capacity overflow"

end Missive
