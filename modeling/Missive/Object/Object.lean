import Missive.Code.CodeUnit
import Missive.Object.Value

/-!
# Objects

Arrays, dictionaries, blocks, instances and classes.  Arrays, dictionaries, the fields of
instances and the class variables of classes can change; everything else about an object is
fixed when it is created.
-/

namespace Missive

/-- A block with everything it captured where it was created. -/
structure Closure where
  body : CodeUnit
  parameterCount : Nat
  /-- The context of the activation that created the block. -/
  outer : ContextId
  receiver : Value
  /-- The class that defines the method in which the block was created. -/
  owner : Option ObjectId
  /-- That method is one of the class itself. -/
  classSide : Bool
  /-- The activation from which a return inside the block returns. -/
  home : FrameId
  /-- The label of the activation that created the block. -/
  origin : String
  deriving Inhabited

/-- A class. -/
structure ClassObject where
  name : String
  superclass : Option ObjectId
  /-- All fields of an instance in the order of their slots, the inherited ones first. -/
  fields : List String
  methods : List MethodDescriptor
  classMethods : List MethodDescriptor
  /-- The class variables that the class itself declares, with their values. -/
  classVars : List (String × Value)
  deriving Inhabited

/-- An object of the store. -/
inductive Object where
  | array (items : List Value)
  /-- The entries in the order in which their keys were first inserted. -/
  | dictionary (entries : List (Value × Value))
  | block (closure : Closure)
  /-- An instance of a class with one value for each field. -/
  | record (classId : ObjectId) (fields : List Value)
  | classObject (definition : ClassObject)
  deriving Inhabited

namespace ClassObject

/-- A class without superclass, fields and methods. -/
def root (name : String) : ClassObject := ⟨name, none, [], [], [], []⟩

/-- The method for a selector on one side of the class.  Of several definitions the last one
counts. -/
def method? (definition : ClassObject) (classSide : Bool) (selector : String) :
    Option MethodDescriptor :=
  let table := if classSide then definition.classMethods else definition.methods
  table.reverse.find? fun method => method.selector == selector

/-- The class itself declares the class variable. -/
def declares (definition : ClassObject) (name : String) : Bool :=
  definition.classVars.any fun entry => entry.1 == name

/-- The class with a new value for one of its class variables. -/
def setClassVar (definition : ClassObject) (name : String) (value : Value) : ClassObject :=
  { definition with
    classVars := definition.classVars.map fun entry =>
      if entry.1 = name then (name, value) else entry }

end ClassObject

namespace Object

/-- The objects to which an object refers, each as often as it does. -/
def references : Object → List ObjectId
  | .array items => items.flatMap Value.references
  | .dictionary entries =>
    entries.flatMap fun (key, value) => key.references ++ value.references
  | .block closure => closure.receiver.references ++ closure.owner.toList
  | .record classId fields => fields.flatMap Value.references ++ [classId]
  | .classObject definition =>
    definition.classVars.flatMap (fun entry => entry.2.references) ++ definition.superclass.toList

/-- The context to which an object refers: only a block refers to one. -/
def contexts : Object → List ContextId
  | .block closure => [closure.outer]
  | _ => []

/-- The object without what its changeable parts refer to. -/
def cleared : Object → Object
  | .array _ => .array []
  | .dictionary _ => .dictionary []
  | .block closure => .block closure
  | .record classId fields => .record classId (fields.map fun _ => .nil)
  | .classObject definition =>
    .classObject
      { definition with classVars := definition.classVars.map fun entry => (entry.1, .nil) }

end Object

end Missive
