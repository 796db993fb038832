import Missive.Code.Crash
import Missive.Code.Opcode

/-!
# Instructions

An instruction is an operation with a signed 32-bit operand.  Some operands hold two numbers: an
index in the upper bits and a count in the lowest byte.
-/

namespace Missive

/-- One instruction of the stack code. -/
structure Instruction where
  opcode : Opcode
  operand : Int32
  deriving DecidableEq, Repr, Inhabited

namespace Instruction

/-- The greatest count that a packed operand can hold. -/
def maxPackedCount : Nat := 255

/-- The greatest index that a packed operand can hold without becoming negative. -/
def maxPackedIndex : Nat := 0x7FFFFF

/-- The index in the bits above the count; what does not fit is cut off. -/
def packedOperand (index count : Nat) : Int32 := Int32.ofNat (index * 256 + count % 256)

/-- An index and a count in one operand.  Both must fit. -/
def pack (index count : Nat) : Except Crash Int32 :=
  if maxPackedCount < count then throw .countTooLarge
  else if maxPackedIndex < index then throw .indexTooLarge
  else return packedOperand index count

/-- The index and the count that an operand holds. -/
def unpack (operand : Int32) : Nat × Nat :=
  let word := operand.toUInt32.toNat
  (word / 256, word % 256)

/-- An instruction whose operand has no meaning. -/
def bare (opcode : Opcode) : Instruction := ⟨opcode, 0⟩

/-- An instruction whose operand is one number. -/
def indexed (opcode : Opcode) (index : Nat) : Instruction := ⟨opcode, Int32.ofNat index⟩

/-- An instruction whose operand holds an index and a count. -/
def packed (opcode : Opcode) (index count : Nat) : Instruction :=
  ⟨opcode, packedOperand index count⟩

/-- The instruction as it is listed. -/
def text (instruction : Instruction) : String :=
  let word := instruction.opcode.mnemonic
  match instruction.opcode.operandKind with
  | .none => word
  | .send | .closure | .outer =>
    let (index, count) := unpack instruction.operand
    word ++ " " ++ toString index ++ "/" ++ toString count
  | _ => word ++ " " ++ toString instruction.operand.toInt

end Instruction

end Missive
