/-!
# Operations of the stack code

Every instruction has one operation and one operand.  The operation fixes what the operand
refers to, the byte that stands for it in a file, and the word that stands for it in a listing.
-/

namespace Missive

/-- What an instruction does. -/
inductive Opcode where
  /-- Pushes a constant of the pool. -/
  | pushConstant
  /-- Drops the top of the stack. -/
  | pop
  /-- Pushes the top of the stack once more. -/
  | dup
  /-- Pushes a local variable of the running activation. -/
  | loadLocal
  /-- Stores the top of the stack, which stays, in a local variable. -/
  | storeLocal
  /-- Pushes a local variable of an enclosing activation. -/
  | loadOuter
  /-- Stores the top of the stack, which stays, in a local variable of an enclosing activation. -/
  | storeOuter
  /-- Pushes a field of the receiver. -/
  | loadField
  /-- Stores the top of the stack, which stays, in a field of the receiver. -/
  | storeField
  /-- Pushes a class variable. -/
  | loadClassVar
  /-- Stores the top of the stack, which stays, in a class variable. -/
  | storeClassVar
  /-- Pushes a global variable. -/
  | loadGlobal
  /-- Stores the top of the stack, which stays, in a global variable. -/
  | storeGlobal
  /-- Sends a message to the value below its arguments. -/
  | send
  /-- Sends a message with lookup above the class of the running method. -/
  | superSend
  /-- Goes on at another instruction. -/
  | jump
  /-- Pops a truth value and goes on at another instruction if it is false. -/
  | jumpIfFalse
  | pushSelf
  | pushNil
  | pushTrue
  | pushFalse
  /-- Pops a class and pushes a new instance of it. -/
  | newInstance
  /-- Creates the class that a descriptor of the pool describes. -/
  | defineClass
  /-- Pushes a block whose code is in the pool. -/
  | makeClosure
  /-- Pops elements and pushes an array of them. -/
  | makeArray
  /-- Pops keys and values and pushes a dictionary of them. -/
  | makeDictionary
  /-- Completes the running activation with the top of the stack. -/
  | return
  /-- Completes the method in which the running block was written. -/
  | nonLocalReturn
  deriving DecidableEq, Repr, Inhabited, Hashable

/-- What the operand of an instruction refers to. -/
inductive OperandKind where
  /-- The operand has no meaning. -/
  | none
  /-- The index of a constant. -/
  | constant
  /-- The index of a string constant. -/
  | name
  /-- The slot of a local variable. -/
  | slot
  /-- A slot together with the number of activations to go outward. -/
  | outer
  /-- The index of a field. -/
  | field
  /-- The index of a selector together with the number of arguments. -/
  | send
  /-- The index of an instruction. -/
  | target
  /-- The index of a class descriptor. -/
  | classDescriptor
  /-- The index of a nested unit together with the number of parameters. -/
  | closure
  /-- A number of elements or entries. -/
  | count
  deriving DecidableEq, Repr

namespace Opcode

/-- All operations in the order of their bytes. -/
def all : List Opcode :=
  [pushConstant, pop, dup, loadLocal, storeLocal, loadOuter, storeOuter, loadField, storeField,
   loadClassVar, storeClassVar, loadGlobal, storeGlobal, send, superSend, jump, jumpIfFalse,
   pushSelf, pushNil, pushTrue, pushFalse, newInstance, defineClass, makeClosure, makeArray,
   makeDictionary, Opcode.return, nonLocalReturn]

/-- What the operand of an operation refers to. -/
def operandKind : Opcode → OperandKind
  | pushConstant => .constant
  | pop | dup | pushSelf | pushNil | pushTrue | pushFalse | newInstance => .none
  | Opcode.return | nonLocalReturn => .none
  | loadLocal | storeLocal => .slot
  | loadOuter | storeOuter => .outer
  | loadField | storeField => .field
  | loadClassVar | storeClassVar | loadGlobal | storeGlobal => .name
  | send | superSend => .send
  | jump | jumpIfFalse => .target
  | defineClass => .classDescriptor
  | makeClosure => .closure
  | makeArray | makeDictionary => .count

/-- The byte that stands for an operation in a file.  The high digit is the family of the
operation. -/
def byte : Opcode → UInt8
  | pushConstant => 0x00
  | pop => 0x01
  | dup => 0x02
  | loadLocal => 0x10
  | storeLocal => 0x11
  | loadOuter => 0x12
  | storeOuter => 0x13
  | loadField => 0x14
  | storeField => 0x15
  | loadClassVar => 0x16
  | storeClassVar => 0x17
  | loadGlobal => 0x18
  | storeGlobal => 0x19
  | send => 0x20
  | superSend => 0x21
  | jump => 0x30
  | jumpIfFalse => 0x31
  | pushSelf => 0x40
  | pushNil => 0x41
  | pushTrue => 0x42
  | pushFalse => 0x43
  | newInstance => 0x50
  | defineClass => 0x51
  | makeClosure => 0x52
  | makeArray => 0x53
  | makeDictionary => 0x54
  | Opcode.return => 0x60
  | nonLocalReturn => 0x61

/-- The operation for which a byte stands. -/
def ofByte? (b : UInt8) : Option Opcode := all.find? fun opcode => opcode.byte == b

/-- The word for an operation in a listing. -/
def mnemonic : Opcode → String
  | pushConstant => "PUSH_CONST"
  | pop => "POP"
  | dup => "DUP"
  | loadLocal => "LOAD_LOCAL"
  | storeLocal => "STORE_LOCAL"
  | loadOuter => "LOAD_OUTER"
  | storeOuter => "STORE_OUTER"
  | loadField => "LOAD_FIELD"
  | storeField => "STORE_FIELD"
  | loadClassVar => "LOAD_CVAR"
  | storeClassVar => "STORE_CVAR"
  | loadGlobal => "LOAD_GLOBAL"
  | storeGlobal => "STORE_GLOBAL"
  | send => "SEND"
  | superSend => "SUPER_SEND"
  | jump => "JUMP"
  | jumpIfFalse => "JUMP_FALSE"
  | pushSelf => "PUSH_SELF"
  | pushNil => "PUSH_NIL"
  | pushTrue => "PUSH_TRUE"
  | pushFalse => "PUSH_FALSE"
  | newInstance => "NEW"
  | defineClass => "DEFINE_CLASS"
  | makeClosure => "MAKE_CLOSURE"
  | makeArray => "MAKE_ARRAY"
  | makeDictionary => "MAKE_DICT"
  | Opcode.return => "RETURN"
  | nonLocalReturn => "NL_RETURN"

/-- The name of an operation in messages about faulty code. -/
def name : Opcode → String
  | pushConstant => "PushConstant"
  | pop => "Pop"
  | dup => "Dup"
  | loadLocal => "LoadLocal"
  | storeLocal => "StoreLocal"
  | loadOuter => "LoadOuter"
  | storeOuter => "StoreOuter"
  | loadField => "LoadField"
  | storeField => "StoreField"
  | loadClassVar => "LoadClassVar"
  | storeClassVar => "StoreClassVar"
  | loadGlobal => "LoadGlobal"
  | storeGlobal => "StoreGlobal"
  | send => "Send"
  | superSend => "SuperSend"
  | jump => "Jump"
  | jumpIfFalse => "JumpIfFalse"
  | pushSelf => "PushSelf"
  | pushNil => "PushNil"
  | pushTrue => "PushTrue"
  | pushFalse => "PushFalse"
  | newInstance => "NewInstance"
  | defineClass => "DefineClass"
  | makeClosure => "MakeClosure"
  | makeArray => "MakeArray"
  | makeDictionary => "MakeDictionary"
  | Opcode.return => "Return"
  | nonLocalReturn => "NonLocalReturn"

/-- Reading the byte of an operation gives the operation back. -/
@[simp] theorem ofByte?_byte (opcode : Opcode) : ofByte? opcode.byte = some opcode := by
  cases opcode <;> rfl

end Opcode

end Missive
