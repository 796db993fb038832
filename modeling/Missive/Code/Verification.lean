import Missive.Code.CodeUnit

/-!
# Verification of code units

A unit is sound when every operand refers to something that exists: an index lies in the pool
and finds a constant of the right kind, a jump stays inside the code, and so on, in the unit and
in every unit nested in it.  Heights of the stack are not part of this check.

The first fault in the order of the code is reported; the code of a unit comes before the units
nested in it.
-/

namespace Missive

/-- A fault in the structure of a code unit. -/
inductive VerifyError where
  | constantOutOfRange (ip : Nat) (index : Int) (poolSize : Nat)
  | wrongConstantKind (ip index : Nat) (expected found : String)
  | negativeOperand (ip : Nat) (opcode : Opcode) (operand : Int32)
  | jumpOutOfRange (ip : Nat) (target : Int32) (codeSize : Nat)
  | zeroDepth (ip : Nat)
  /-- A fault in a nested unit, with the place where that unit is found. -/
  | nested (location : String) (fault : VerifyError)
  deriving DecidableEq, Repr

namespace VerifyError

/-- The text that reports a fault. -/
def message : VerifyError → String
  | .constantOutOfRange ip index poolSize =>
    "ip=" ++ toString ip ++ ": constant index " ++ toString index ++ " out of range (pool has "
      ++ toString poolSize ++ ")"
  | .wrongConstantKind ip index expected found =>
    "ip=" ++ toString ip ++ ": constant " ++ toString index ++ " is a " ++ found ++ ", expected "
      ++ expected
  | .negativeOperand ip opcode operand =>
    "ip=" ++ toString ip ++ ": negative operand " ++ toString operand.toInt ++ " for "
      ++ opcode.name
  | .jumpOutOfRange ip target codeSize =>
    "ip=" ++ toString ip ++ ": jump target " ++ toString target.toInt ++ " outside 0..="
      ++ toString codeSize
  | .zeroDepth ip => "ip=" ++ toString ip ++ ": outer access with depth 0"
  | .nested location fault => "in " ++ location ++ ": " ++ fault.message

end VerifyError

/-! ## Operands -/

/-- The constant at an index of the pool, with the index. -/
def constantAt (constants : List Constant) (ip : Nat) (index : Int) :
    Except VerifyError (Nat × Constant) :=
  match (if index < 0 then none else constants[index.toNat]?) with
  | some constant => .ok (index.toNat, constant)
  | none => .error (.constantOutOfRange ip index constants.length)

/-- The constant at an index of the pool is of the expected kind. -/
def expectConstant (constants : List Constant) (ip : Nat) (index : Int) (expected : String) :
    Except VerifyError Unit := do
  let (position, constant) ← constantAt constants ip index
  if constant.kindName = expected then pure ()
  else throw (.wrongConstantKind ip position expected constant.kindName)

/-- The operand of an instruction is not negative. -/
def expectNonnegative (ip : Nat) (instruction : Instruction) : Except VerifyError Unit :=
  if instruction.operand < 0 then
    throw (.negativeOperand ip instruction.opcode instruction.operand)
  else pure ()

/-- Checks the operand of the instruction at `ip` against the pool and the size of the code. -/
def Instruction.verify (constants : List Constant) (codeSize ip : Nat)
    (instruction : Instruction) : Except VerifyError Unit :=
  let operand := instruction.operand
  match instruction.opcode.operandKind with
  | .none => pure ()
  | .constant => do
    let _ ← constantAt constants ip operand.toInt
  | .name => expectConstant constants ip operand.toInt "string"
  | .slot | .field | .count => expectNonnegative ip instruction
  | .outer => do
    expectNonnegative ip instruction
    if (Instruction.unpack operand).2 = 0 then throw (.zeroDepth ip)
  | .send => do
    expectNonnegative ip instruction
    expectConstant constants ip (Instruction.unpack operand).1 "string"
  | .target =>
    if operand < 0 ∨ (codeSize : Int) < operand.toInt then
      throw (.jumpOutOfRange ip operand codeSize)
    else pure ()
  | .classDescriptor => expectConstant constants ip operand.toInt "class descriptor"
  | .closure => do
    expectNonnegative ip instruction
    expectConstant constants ip (Instruction.unpack operand).1 "bytecode"

/-- Checks the instructions from position `ip` on. -/
def verifyCode (constants : List Constant) (codeSize : Nat) :
    (ip : Nat) → List Instruction → Except VerifyError Unit
  | _, [] => pure ()
  | ip, instruction :: rest => do
    instruction.verify constants codeSize ip
    verifyCode constants codeSize (ip + 1) rest

/-- Reports a fault as one of the unit at a place. -/
def VerifyError.locate {α : Type} (location : String) (result : Except VerifyError α) :
    Except VerifyError α :=
  result.mapError (.nested location)

/-! ## Units -/

mutual

/-- Checks a unit and every unit nested in it. -/
def CodeUnit.verify : CodeUnit → Except VerifyError Unit
  | ⟨code, constants⟩ => do
    verifyCode constants code.size 0 code.toList
    verifyConstants 0 constants

/-- Checks the units in the constants of a pool from position `index` on. -/
def verifyConstants : (index : Nat) → List Constant → Except VerifyError Unit
  | _, [] => pure ()
  | index, constant :: rest => do
    constant.verify index
    verifyConstants (index + 1) rest

/-- Checks the units in the constant at position `index`. -/
def Constant.verify (index : Nat) : Constant → Except VerifyError Unit
  | .block body => VerifyError.locate ("block constant " ++ toString index) body.verify
  | .classDescriptor ⟨name, _, _, _, methods, classMethods⟩ => do
    verifyMethods name methods
    verifyMethods (name ++ " class") classMethods
  | _ => pure ()

/-- Checks the bodies of the methods on one side of a class. -/
def verifyMethods (owner : String) : List MethodDescriptor → Except VerifyError Unit
  | [] => pure ()
  | ⟨selector, _, body⟩ :: rest => do
    VerifyError.locate (owner ++ ">>" ++ selector) body.verify
    verifyMethods owner rest

end

/-- The unit and every unit nested in it are free of faults. -/
def CodeUnit.isSound (codeUnit : CodeUnit) : Bool := codeUnit.verify.isOk

end Missive
