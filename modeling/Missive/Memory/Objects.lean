import Missive.Memory.Reach
import Missive.Object.Store

/-!
# Release and collection of objects

An object goes away as soon as nothing refers to it any more, and with it what only it referred
to.  Objects that refer to each other in a circle keep each other alive in this way; the
collector finds such circles among the tracked objects.

The collector takes as roots the tracked objects to which something refers that is not tracked:
a reference from outside the store, or one from an object that is not tracked.  What cannot be
reached from a root is cleared, which breaks the circles, and is then released.
-/

namespace Missive

namespace Store

/-- Counts one reference more to each of the given objects. -/
def countMore (counts : Array Nat) (ids : List ObjectId) : Array Nat :=
  ids.foldl (fun counts id => counts.modify id.index (· + 1)) counts

/-- Counts one reference less to each of the given objects.  The first part of the answer holds
those to which no reference is left. -/
def countLess (counts : Array Nat) (ids : List ObjectId) : List ObjectId × Array Nat :=
  ids.foldl
    (fun (unreferenced, counts) id =>
      match counts[id.index]? with
      | some count =>
        let lowered := counts.setIfInBounds id.index (count - 1)
        if count = 1 then (id :: unreferenced, lowered) else (unreferenced, lowered)
      | none => (unreferenced, counts))
    ([], counts)

/-- How many references there are to each object, from outside and from objects that have not
gone away. -/
def referenceCounts (store : Store) (outside : List ObjectId) : Array Nat :=
  store.cells.foldl
    (fun counts cell =>
      match cell.object with
      | some object => countMore counts object.references
      | none => counts)
    (countMore (Array.replicate store.cells.size 0) outside)

/-- Removes the objects in `work`, to which nothing refers, and with them the objects to which
only removed objects referred.  `counts` holds the number of references to each object.  Each
removal takes one unit of fuel, so as much fuel as there are cells is always enough. -/
def releaseFrom (fuel : Nat) (work : List ObjectId) (counts : Array Nat) (store : Store) : Store :=
  match fuel, work with
  | remaining + 1, id :: rest =>
    match store.get? id with
    | some object =>
      let (unreferenced, lowered) := countLess counts object.references
      releaseFrom remaining (unreferenced ++ rest) lowered (store.erase id)
    | none => releaseFrom remaining rest counts store
  | _, _ => store

/-- Removes every object that has gone away: nothing outside refers to it, nor does an object
that has not gone away. -/
def release (store : Store) (outside : List ObjectId) : Store :=
  let counts := store.referenceCounts outside
  let unreferenced := store.ids.filter fun id => counts[id.index]? = some 0
  releaseFrom store.cells.size unreferenced counts store

/-- The objects to which something refers that is not tracked. -/
def held (store : Store) (outside : List ObjectId) : Std.HashSet ObjectId :=
  store.cells.foldl
    (fun found cell =>
      match cell.object with
      | some object => if cell.tracked then found else found.insertMany object.references
      | none => found)
    (Std.HashSet.ofList outside)

/-- The tracked objects that have not gone away. -/
def trackedIds (store : Store) : List ObjectId := store.ids.filter store.isTracked

/-- The objects to which an object refers and which have not gone away. -/
def successors (store : Store) (id : ObjectId) : List ObjectId :=
  match store.get? id with
  | some object => object.references.filter fun other => (store.get? other).isSome
  | none => []

/-- The objects that can be reached from a tracked object to which something refers that is not
tracked. -/
def inUse (store : Store) (outside : List ObjectId) : Std.HashSet ObjectId :=
  let holders := store.held outside
  reachable store.successors store.cells.size (store.trackedIds.filter holders.contains)

/-- The tracked objects that cannot be reached from a root. -/
def garbage (store : Store) (outside : List ObjectId) : List ObjectId :=
  let used := store.inUse outside
  store.trackedIds.filter fun id => !used.contains id

/-- Clears the changeable parts of an object. -/
def clear (store : Store) (id : ObjectId) : Store :=
  match store.get? id with
  | some object => store.set id object.cleared
  | none => store

/-- Stops tracking objects that have gone away. -/
def forgetGone (store : Store) : Store :=
  let cells := store.cells.map fun cell =>
    { cell with tracked := cell.tracked && cell.object.isSome }
  { cells := cells, trackedCount := cells.countP (·.tracked) }

/-- Clears all tracked objects that cannot be reached from a root, releases what goes away with
them, and answers how many were cleared. -/
def collect (store : Store) (outside : List ObjectId) : Nat × Store :=
  let present := store.release outside
  let found := present.garbage outside
  let cleared := found.foldl clear present
  (found.length, (cleared.release outside).forgetGone)

end Store

end Missive
