import Missive.Object.Object

/-!
# The store

The store holds the objects by their identities.  A new object gets the next identity, so an
object only refers to older ones when it is created.  An object that nothing refers to any more
goes away, and its identity stays unused.

The collector looks only at objects that are tracked.  The store counts how many objects have
been tracked and not yet been found gone.
-/

namespace Missive

/-- The place of one object. -/
structure Cell where
  /-- The object, until it goes away. -/
  object : Option Object
  /-- The collector looks after the object. -/
  tracked : Bool
  deriving Inhabited

/-- The objects by their identities. -/
structure Store where
  cells : Array Cell
  /-- How many cells are tracked. -/
  trackedCount : Nat
  deriving Inhabited

namespace Store

/-- The store without objects. -/
def empty : Store := ⟨#[], 0⟩

/-- The object with an identity, unless it has gone away. -/
def get? (store : Store) (id : ObjectId) : Option Object :=
  match store.cells[id.index]? with
  | some cell => cell.object
  | none => none

/-- Adds an object under a new identity. -/
def alloc (store : Store) (object : Object) : ObjectId × Store :=
  (⟨store.cells.size⟩, { store with cells := store.cells.push ⟨some object, false⟩ })

/-- Replaces the object with an identity. -/
def set (store : Store) (id : ObjectId) (object : Object) : Store :=
  { store with
    cells := store.cells.modify id.index fun cell => { cell with object := some object } }

/-- Removes the object with an identity. -/
def erase (store : Store) (id : ObjectId) : Store :=
  { store with cells := store.cells.modify id.index fun cell => { cell with object := none } }

/-- Starts to track what a value refers to.  Tracking an object twice changes nothing. -/
def track (store : Store) : Value → Store
  | .ref id =>
    match store.cells[id.index]? with
    | some cell =>
      if cell.tracked then store
      else
        { cells := store.cells.modify id.index fun cell => { cell with tracked := true }
          trackedCount := store.trackedCount + 1 }
    | none => store
  | _ => store

/-- The identities of all objects that have not gone away. -/
def ids (store : Store) : List ObjectId :=
  (List.range store.cells.size).filterMap fun index =>
    let id : ObjectId := ⟨index⟩
    if (store.get? id).isSome then some id else none

/-- The object with an identity is tracked. -/
def isTracked (store : Store) (id : ObjectId) : Bool :=
  match store.cells[id.index]? with
  | some cell => cell.tracked
  | none => false

/-- How many tracked objects have not gone away. -/
def liveCount (store : Store) : Nat :=
  store.cells.countP fun cell => cell.tracked && cell.object.isSome

/-- The class with an identity. -/
def class? (store : Store) (id : ObjectId) : Option ClassObject :=
  match store.get? id with
  | some (.classObject definition) => some definition
  | _ => none

end Store

/-- A value together with the contents of the object to which it refers. -/
inductive Seen where
  | nil
  | bool (value : Bool)
  | int (value : Int64)
  | float (value : Binary64)
  | string (text : String)
  | array (id : ObjectId) (items : List Value)
  | dictionary (id : ObjectId) (entries : List (Value × Value))
  | block (id : ObjectId) (closure : Closure)
  | record (id classId : ObjectId) (fields : List Value)
  | classObject (id : ObjectId) (definition : ClassObject)
  /-- A reference to an object that has gone away; no running program holds one. -/
  | gone (id : ObjectId)

/-- Looks at a value and at the object to which it refers. -/
def Store.see (store : Store) : Value → Seen
  | .nil => .nil
  | .bool value => .bool value
  | .int value => .int value
  | .float value => .float value
  | .string text => .string text
  | .ref id =>
    match store.get? id with
    | some (.array items) => .array id items
    | some (.dictionary entries) => .dictionary id entries
    | some (.block closure) => .block id closure
    | some (.record classId fields) => .record id classId fields
    | some (.classObject definition) => .classObject id definition
    | none => .gone id

end Missive
