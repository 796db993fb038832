import Std.Data.HashSet

/-!
# Reachability

The nodes of a finite graph that can be reached from given ones.  Every node is followed once, so
the search ends also where the graph has cycles.
-/

namespace Missive

/-- The nodes reached from those in `work`, added to those in `seen`.  Each node that is seen for
the first time takes one unit of fuel; as much fuel as the graph has nodes is always enough. -/
def reach {α : Type} [BEq α] [Hashable α] (successors : α → List α) (fuel : Nat)
    (work : List α) (seen : Std.HashSet α) : Std.HashSet α :=
  match work with
  | [] => seen
  | node :: rest =>
    if seen.contains node then reach successors fuel rest seen
    else
      match fuel with
      | 0 => seen
      | remaining + 1 => reach successors remaining (successors node ++ rest) (seen.insert node)
termination_by (fuel, work.length)

/-- The nodes reached from the given ones in a graph of at most `size` nodes. -/
def reachable {α : Type} [BEq α] [Hashable α] (successors : α → List α) (size : Nat)
    (roots : List α) : Std.HashSet α :=
  reach successors size roots ∅

end Missive
