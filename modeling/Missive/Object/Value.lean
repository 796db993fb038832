import Missive.Numeric.Binary64

/-!
# Values

A value is an immediate (a number, a text, a truth value or `nil`) or a reference to an object
in the store.  Immediates have no identity: two of them are the same when their contents are.
-/

namespace Missive

/-- The identity of an object.  Identities are given out in ascending order and never again. -/
structure ObjectId where
  index : Nat
  deriving DecidableEq, Hashable, Repr, Inhabited

/-- The handle of a context.  The generation tells apart the contexts that have used the same
place one after the other. -/
structure ContextId where
  index : Nat
  generation : Nat
  deriving DecidableEq, Hashable, Repr, Inhabited

/-- The identity of an activation. -/
structure FrameId where
  number : Nat
  deriving DecidableEq, Repr, Inhabited

/-- What variables hold and messages are sent to. -/
inductive Value where
  | nil
  | bool (value : Bool)
  | int (value : Int64)
  | float (value : Binary64)
  | string (text : String)
  /-- A reference to an object. -/
  | ref (id : ObjectId)
  deriving DecidableEq, Repr, Inhabited

namespace Value

/-- The value is `nil`. -/
def isNil : Value → Bool
  | .nil => true
  | _ => false

/-- The objects to which a value refers: one or none. -/
def references : Value → List ObjectId
  | .ref id => [id]
  | _ => []

/-- Two values are the same object; immediates are compared by content, numbers by their words. -/
def identical (a b : Value) : Bool := a == b

end Value

end Missive
