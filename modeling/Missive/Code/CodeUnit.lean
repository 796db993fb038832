import Missive.Code.Instruction
import Missive.Numeric.Binary64

/-!
# Code units

A code unit is a sequence of instructions with the pool of constants they refer to.  The bodies
of blocks and methods are units of their own, kept in the pool of the unit around them, so units
nest to any depth.
-/

namespace Missive

mutual

/-- Instructions with their pool of constants. -/
structure CodeUnit where
  code : Array Instruction
  constants : List Constant

/-- One entry of a pool of constants. -/
inductive Constant where
  | int (value : Int64)
  | float (value : Binary64)
  /-- A text, which may also be a selector or the name of a variable. -/
  | string (text : String)
  | bool (value : Bool)
  | nil
  /-- The body of a block. -/
  | block (body : CodeUnit)
  | classDescriptor (descriptor : ClassDescriptor)

/-- The description of a class from which it is created. -/
structure ClassDescriptor where
  name : String
  superclass : Option String
  /-- The fields that the class adds to the inherited ones. -/
  fields : List String
  classVars : List String
  methods : List MethodDescriptor
  classMethods : List MethodDescriptor

/-- The description of a method. -/
structure MethodDescriptor where
  selector : String
  parameters : List String
  body : CodeUnit

end

instance : Inhabited CodeUnit := ⟨⟨#[], []⟩⟩

instance : Inhabited Constant := ⟨.nil⟩

namespace CodeUnit

/-- The unit without instructions and constants. -/
def empty : CodeUnit := ⟨#[], []⟩

/-- How many instructions of the unit itself, nested units left out, have the operation. -/
def countOpcode (codeUnit : CodeUnit) (opcode : Opcode) : Nat :=
  codeUnit.code.countP fun instruction => instruction.opcode == opcode

end CodeUnit

namespace Constant

/-- What a constant is called in messages about faulty code. -/
def kindName : Constant → String
  | .int _ => "integer"
  | .float _ => "float"
  | .string _ => "string"
  | .bool _ => "boolean"
  | .nil => "nil"
  | .block _ => "bytecode"
  | .classDescriptor _ => "class descriptor"

/-- The two constants are the same literal and can share one place in the pool.  Numbers are
compared by their words, so the two zeros stay apart, and nested units are never shared. -/
def sameLiteral : Constant → Constant → Bool
  | .int a, .int b => a == b
  | .float a, .float b => a == b
  | .string a, .string b => a == b
  | .bool a, .bool b => a == b
  | .nil, .nil => true
  | _, _ => false

end Constant

end Missive
