import Missive.Memory.Arena
import Missive.Memory.Reach
import Missive.Object.Store

/-!
# Collection of contexts

A context is kept as long as it can be reached from the given handles and values: through outer
links and local variables, through blocks to their contexts, and through objects to the objects
to which they refer.  All other contexts are freed.
-/

namespace Missive

/-- What is followed to find the contexts in use. -/
inductive Node where
  | context (id : ContextId)
  | object (id : ObjectId)
  deriving DecidableEq, Hashable, Repr

namespace Node

/-- The node is there: a live context or an object that has not gone away. -/
def present (arena : Arena) (store : Store) : Node → Bool
  | .context id => arena.isLive id
  | .object id => (store.get? id).isSome

/-- The nodes to which values refer. -/
def ofValues (values : List Value) : List Node := (values.flatMap Value.references).map .object

/-- The nodes to which a node refers. -/
def successors (arena : Arena) (store : Store) (node : Node) : List Node :=
  let all : List Node :=
    match node with
    | .context id =>
      match arena.get? id with
      | some found => found.outer.toList.map .context ++ ofValues found.locals.toList
      | none => []
    | .object id =>
      match store.get? id with
      | some found => found.contexts.map .context ++ found.references.map .object
      | none => []
  all.filter (present arena store)

end Node

namespace Arena

/-- The contexts and objects that can be reached from handles and values. -/
def inUse (arena : Arena) (store : Store) (roots : List ContextId) (values : List Value) :
    Std.HashSet Node :=
  let start := (roots.map Node.context ++ Node.ofValues values).filter (Node.present arena store)
  reachable (Node.successors arena store) (arena.places.size + store.cells.size) start

/-- Frees every context that cannot be reached, and answers how many were freed. -/
def collect (arena : Arena) (store : Store) (roots : List ContextId) (values : List Value) :
    Nat × Arena :=
  let used := arena.inUse store roots values
  let unused := arena.handles.filter fun id => !used.contains (.context id)
  (unused.length, arena.freeAll (unused.map ContextId.index))

end Arena

end Missive
