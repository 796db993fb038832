import Missive.Object.Store

/-!
# Classes and their superclasses

A class is created after its superclass and so has the greater identity.  The way up from a
class therefore ends.  Method lookup, inheritance and class variables all walk this way.
-/

namespace Missive

namespace Store

/-- A class and the classes above it, the nearest first. -/
def lineage (store : Store) (id : ObjectId) : List (ObjectId × ClassObject) :=
  match store.class? id with
  | none => []
  | some definition =>
    let above :=
      match definition.superclass with
      | none => []
      | some parent => if parent.index < id.index then store.lineage parent else []
    (id, definition) :: above
termination_by id.index

/-- The nearest method for a selector from a class upward, with the class that defines it. -/
def lookup (store : Store) (classSide : Bool) (selector : String) (id : ObjectId) :
    Option (ObjectId × ClassObject × MethodDescriptor) :=
  (store.lineage id).findSome? fun (owner, definition) =>
    (definition.method? classSide selector).map fun method => (owner, definition, method)

/-- The first class is the second one or inherits from it. -/
def inheritsFrom (store : Store) (id ancestor : ObjectId) : Bool :=
  (store.lineage id).any fun entry => entry.1 == ancestor

/-- The nearest class from a class upward that declares a class variable. -/
def classVarOwner? (store : Store) (id : ObjectId) (name : String) :
    Option (ObjectId × ClassObject) :=
  (store.lineage id).find? fun entry => entry.2.declares name

/-- The value of a class variable as the class sees it. -/
def classVar? (store : Store) (id : ObjectId) (name : String) : Option Value := do
  let (_, definition) ← store.classVarOwner? id name
  definition.classVars.lookup name

/-- Stores a value in a class variable of the class that declares it. -/
def setOwnClassVar (store : Store) (owner : ObjectId) (definition : ClassObject) (name : String)
    (value : Value) : Store :=
  store.set owner (.classObject (definition.setClassVar name value))

/-- Stores a value in a class variable where it is declared, if some class declares it. -/
def setClassVar? (store : Store) (id : ObjectId) (name : String) (value : Value) :
    Option Store := do
  let (owner, definition) ← store.classVarOwner? id name
  return store.setOwnClassVar owner definition name value

/-- The name of a class. -/
def nameOf (store : Store) (id : ObjectId) : String :=
  match store.class? id with
  | some definition => definition.name
  | none => ""

/-- How many fields the instances of a class have. -/
def fieldCount (store : Store) (id : ObjectId) : Nat :=
  match store.class? id with
  | some definition => definition.fields.length
  | none => 0

/-- A new instance of a class, with `nil` in every field. -/
def newRecord (store : Store) (classId : ObjectId) : ObjectId × Store :=
  store.alloc (.record classId (List.replicate (store.fieldCount classId) .nil))

/-- A new class as a descriptor describes it.  Its fields come after the inherited ones, and its
class variables start with `nil`. -/
def newClass (store : Store) (descriptor : ClassDescriptor) (superclass : Option ObjectId) :
    ObjectId × Store :=
  let inherited :=
    match superclass.bind store.class? with
    | some parent => parent.fields
    | none => []
  store.alloc (.classObject
    { name := descriptor.name
      superclass := superclass
      fields := inherited ++ descriptor.fields
      methods := descriptor.methods
      classMethods := descriptor.classMethods
      classVars := descriptor.classVars.eraseDups.map fun name => (name, .nil) })

/-- Stores a value in a field of an instance; without such a field nothing changes. -/
def setField (store : Store) (id : ObjectId) (index : Nat) (value : Value) : Store :=
  match store.get? id with
  | some (.record classId fields) => store.set id (.record classId (fields.set index value))
  | _ => store

/-- Stores a value in a field of an instance, if there is such a field. -/
def setField? (store : Store) (id : ObjectId) (index : Nat) (value : Value) : Option Store :=
  match store.get? id with
  | some (.record _ fields) =>
    if index < fields.length then some (store.setField id index value) else none
  | _ => none

end Store

end Missive
