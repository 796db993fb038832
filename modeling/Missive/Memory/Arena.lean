import Missive.Object.Value

/-!
# The arena of contexts

A context holds the local variables of one activation and the handle of the context around it.
Contexts live in an arena.  The place of a context that was freed is used again, the last one
freed first; its generation has changed by then, so a handle of the old context is never taken
for one of the new context.
-/

namespace Missive

/-- The local variables of one activation. -/
structure Context where
  locals : Array Value
  /-- The context of the activation in which the running block was created. -/
  outer : Option ContextId
  deriving Repr, Inhabited

/-- A place in the arena. -/
structure Place where
  /-- How many contexts have been freed here. -/
  generation : Nat
  context : Option Context
  deriving Repr, Inhabited

/-- The contexts by their places. -/
structure Arena where
  places : Array Place
  /-- The places without a context, the last one freed first. -/
  free : List Nat
  /-- How many contexts there are. -/
  live : Nat
  deriving Repr, Inhabited

namespace Arena

/-- The arena without contexts. -/
def empty : Arena := ⟨#[], [], 0⟩

/-- The context of a handle; a stale handle has none. -/
def get? (arena : Arena) (id : ContextId) : Option Context :=
  match arena.places[id.index]? with
  | some place => if place.generation = id.generation then place.context else none
  | none => none

/-- The handle is the handle of a context. -/
def isLive (arena : Arena) (id : ContextId) : Bool := (arena.get? id).isSome

/-- Adds a context, in the place that was freed last or at the end. -/
def alloc (arena : Arena) (context : Context) : ContextId × Arena :=
  match arena.free with
  | index :: rest =>
    let generation := (arena.places[index]?.getD ⟨0, none⟩).generation
    (⟨index, generation⟩,
      { places := arena.places.modify index fun place => { place with context := some context }
        free := rest
        live := arena.live + 1 })
  | [] =>
    (⟨arena.places.size, 0⟩,
      { arena with places := arena.places.push ⟨0, some context⟩, live := arena.live + 1 })

/-- The value of a local variable; one that was never stored is `nil`.  A stale handle has no
variables. -/
def load? (arena : Arena) (id : ContextId) (slot : Nat) : Option Value := do
  let context ← arena.get? id
  return context.locals[slot]?.getD .nil

/-- The local variables with a new value in a slot, with `nil` in all slots passed over. -/
def Context.store (context : Context) (slot : Nat) (value : Value) : Context :=
  let padding := Array.replicate (slot + 1 - context.locals.size) Value.nil
  { context with locals := (context.locals ++ padding).setIfInBounds slot value }

/-- Stores the value of a local variable in the context at the place of a handle. -/
def put (arena : Arena) (id : ContextId) (slot : Nat) (value : Value) : Arena :=
  { arena with
    places := arena.places.modify id.index fun place =>
      { place with context := place.context.map (Context.store · slot value) } }

/-- Stores the value of a local variable; a stale handle has none. -/
def store? (arena : Arena) (id : ContextId) (slot : Nat) (value : Value) : Option Arena :=
  if arena.isLive id then some (arena.put id slot value) else none

/-- The handle `depth` steps outward, or nothing where the contexts end before.  A stale handle
on the way makes the whole walk stale. -/
def resolve? (arena : Arena) (id : ContextId) : (depth : Nat) → Option (Option ContextId)
  | 0 => some (some id)
  | depth + 1 => do
    let context ← arena.get? id
    match context.outer with
    | some outer => arena.resolve? outer depth
    | none => return none

/-- Frees the contexts at the given places in order. -/
def freeAll (arena : Arena) (indices : List Nat) : Arena :=
  indices.foldl
    (fun arena index =>
      { places := arena.places.modify index fun place => ⟨place.generation + 1, none⟩
        free := index :: arena.free
        live := arena.live - 1 })
    arena

/-- The handles of all contexts in the order of their places. -/
def handles (arena : Arena) : List ContextId :=
  arena.places.toList.zipIdx.filterMap fun (place, index) =>
    if place.context.isSome then some ⟨index, place.generation⟩ else none

end Arena

end Missive
