import Missive.Code.Verification
import Missive.Proofs.Answers
import Missive.Proofs.Machine.Operands

/-!
# What verification accepts

An instruction is valid when the program that runs it finds what the operand selects.  The operand
is read here as a running program reads it, and not as the check does.

Verification accepts a unit exactly if its instructions are valid and the units nested in it are
accepted.
-/

namespace Missive

namespace Exec

theorem nonnegative_iff {operand : Int32} : ¬ operand < 0 ↔ 0 ≤ operand.toInt := by
  rw [Int32.lt_iff_toInt_lt, Int32.toInt_zero, Int.not_lt]

/-- An operand that is not negative stands for itself. -/
theorem ofNat_toNat_toInt {operand : Int32} (nonnegative : ¬ operand < 0) :
    operand.toInt.toNat < 0x80000000 ∧ Int32.ofNat operand.toInt.toNat = operand := by
  have positive := nonnegative_iff.mp nonnegative
  have bounded := operand.toInt_lt
  have fits : operand.toInt.toNat < 0x80000000 := by omega
  refine ⟨fits, ?_⟩
  rw [← Int32.toInt_inj, Int32.toInt_ofNat_of_lt fits, Int.toNat_of_nonneg positive]

theorem elementCount_of_nonnegative {operand : Int32} (nonnegative : ¬ operand < 0) :
    elementCount operand = operand.toInt.toNat := by
  obtain ⟨fits, same⟩ := ofNat_toNat_toInt nonnegative
  rw [← elementCount_ofNat fits, same]

end Exec

/-! ## Instructions -/

namespace Instruction

/-- The constant that an operand selects. -/
def selected (constants : List Constant) (operand : Int32) : Option Constant :=
  (Exec.operandIndex? operand).bind fun index => constants[index]?

/-- The constant that an operand selects which also holds a count. -/
def packedSelected (constants : List Constant) (operand : Int32) : Option Constant :=
  constants[(unpack operand).1]?

/-- The operand refers to something that exists. -/
def Valid (constants : List Constant) (codeSize : Nat) (instruction : Instruction) : Prop :=
  let operand := instruction.operand
  match instruction.opcode.operandKind with
  | .none => True
  | .constant => ∃ constant, selected constants operand = some constant
  | .name => ∃ name, selected constants operand = some (.string name)
  | .slot | .field | .count => ¬ operand < 0
  | .outer => ¬ operand < 0 ∧ (unpack operand).2 ≠ 0
  | .send => ¬ operand < 0 ∧ ∃ selector, packedSelected constants operand = some (.string selector)
  | .target => ¬ operand < 0 ∧ Exec.elementCount operand ≤ codeSize
  | .classDescriptor =>
    ∃ descriptor, selected constants operand = some (.classDescriptor descriptor)
  | .closure => ¬ operand < 0 ∧ ∃ body, packedSelected constants operand = some (.block body)

end Instruction

section Constants

variable {constants : List Constant} {ip : Nat}

theorem kindName_string_iff {constant : Constant} :
    constant.kindName = "string" ↔ ∃ text, constant = .string text := by
  cases constant <;> simp [Constant.kindName]

theorem kindName_classDescriptor_iff {constant : Constant} :
    constant.kindName = "class descriptor" ↔
      ∃ descriptor, constant = .classDescriptor descriptor := by
  cases constant <;> simp [Constant.kindName]

theorem kindName_block_iff {constant : Constant} :
    constant.kindName = "bytecode" ↔ ∃ body, constant = .block body := by
  cases constant <;> simp [Constant.kindName]

/-- The check reads an operand as a running program does. -/
theorem selected_eq (constants : List Constant) (operand : Int32) :
    (if operand.toInt < 0 then none else constants[operand.toInt.toNat]?) =
      Instruction.selected constants operand := by
  unfold Instruction.selected Exec.operandIndex?
  by_cases negative : operand < 0
  · have isNegative : operand.toInt < 0 := by
      simpa [Int32.lt_iff_toInt_lt] using negative
    simp [negative, isNegative]
  · have notNegative : ¬ operand.toInt < 0 := by
      simpa [Int32.lt_iff_toInt_lt] using negative
    simp [negative, notNegative]

theorem constantAt_eq_ok_iff {index : Int} {position : Nat} {constant : Constant} :
    constantAt constants ip index = .ok (position, constant) ↔
      position = index.toNat ∧
        (if index < 0 then none else constants[index.toNat]?) = some constant := by
  unfold constantAt
  cases (if index < 0 then none else constants[index.toNat]?) with
  | none =>
      simp
  | some found =>
      simp [eq_comm]

theorem expectConstant_eq_ok_iff {index : Int} {expected : String} :
    expectConstant constants ip index expected = .ok () ↔
      ∃ constant, (if index < 0 then none else constants[index.toNat]?) = some constant ∧
        constant.kindName = expected := by
  unfold expectConstant
  rw [Except.bind_eq_ok]
  constructor
  · rintro ⟨⟨position, constant⟩, found, checked⟩
    refine ⟨constant, (constantAt_eq_ok_iff.mp found).2, ?_⟩
    by_cases isKind : constant.kindName = expected
    · exact isKind
    · simp only [isKind, if_false] at checked
      cases checked
  · rintro ⟨constant, found, isKind⟩
    refine ⟨(index.toNat, constant), constantAt_eq_ok_iff.mpr ⟨rfl, found⟩, ?_⟩
    simp [isKind]
    rfl

theorem expectConstant_operand_iff {operand : Int32} {expected : String} :
    expectConstant constants ip operand.toInt expected = .ok () ↔
      ∃ constant, Instruction.selected constants operand = some constant ∧
        constant.kindName = expected := by
  rw [expectConstant_eq_ok_iff, selected_eq]

theorem expectConstant_packed_iff {operand : Int32} {expected : String} :
    expectConstant constants ip (Instruction.unpack operand).1 expected = .ok () ↔
      ∃ constant, Instruction.packedSelected constants operand = some constant ∧
        constant.kindName = expected := by
  rw [expectConstant_eq_ok_iff, if_neg (by omega), Int.toNat_natCast]
  rfl

theorem expectNonnegative_eq_ok_iff {instruction : Instruction} :
    expectNonnegative ip instruction = .ok () ↔ ¬ instruction.operand < 0 := by
  unfold expectNonnegative
  by_cases negative : instruction.operand < 0
  · simp only [negative, if_true, not_true, iff_false]
    intro impossible
    cases impossible
  · simp only [negative, if_false, not_false_eq_true, iff_true]
    rfl

end Constants

theorem Instruction.verify_eq_ok_iff {constants : List Constant} {codeSize ip : Nat}
    {instruction : Instruction} :
    instruction.verify constants codeSize ip = .ok () ↔
      instruction.Valid constants codeSize := by
  obtain ⟨opcode, operand⟩ := instruction
  unfold Instruction.verify Instruction.Valid
  dsimp only
  cases opcode.operandKind with
  | none =>
      simp only [iff_true]
      rfl
  | constant =>
      rw [Except.bind_eq_ok]
      simp only [Prod.exists, constantAt_eq_ok_iff, selected_eq]
      constructor
      · rintro ⟨_, constant, ⟨_, found⟩, _⟩
        exact ⟨constant, found⟩
      · rintro ⟨constant, found⟩
        exact ⟨_, constant, ⟨rfl, found⟩, rfl⟩
  | name =>
      rw [expectConstant_operand_iff]
      simp only [kindName_string_iff]
      grind
  | slot | field | count =>
      exact expectNonnegative_eq_ok_iff
  | outer =>
      rw [Except.check_bind_eq_ok, expectNonnegative_eq_ok_iff]
      by_cases zero : (Instruction.unpack operand).2 = 0
      · simp only [zero, if_true, ne_eq, not_true, and_false, iff_false, not_and]
        intro _ impossible
        cases impossible
      · simp only [zero, if_false, ne_eq, not_false_eq_true, and_true, and_iff_left_iff_imp]
        intro _
        rfl
  | send =>
      rw [Except.check_bind_eq_ok, expectNonnegative_eq_ok_iff, expectConstant_packed_iff]
      simp only [kindName_string_iff]
      grind
  | target =>
      by_cases negative : operand < 0
      · simp only [negative, true_or, if_true, not_true, false_and, iff_false]
        intro impossible
        cases impossible
      · have isCount := Exec.elementCount_of_nonnegative negative
        have positive := Exec.nonnegative_iff.mp negative
        by_cases outside : (codeSize : Int) < operand.toInt
        · simp only [outside, or_true, if_true]
          constructor
          · intro impossible
            cases impossible
          · rintro ⟨_, inside⟩
            omega
        · simp only [negative, outside, or_self, if_false, not_false_eq_true, true_and]
          constructor
          · intro _
            omega
          · intro _
            rfl
  | classDescriptor =>
      rw [expectConstant_operand_iff]
      simp only [kindName_classDescriptor_iff]
      grind
  | closure =>
      rw [Except.check_bind_eq_ok, expectNonnegative_eq_ok_iff, expectConstant_packed_iff]
      simp only [kindName_block_iff]
      grind

/-! ## Units -/

theorem verifyCode_eq_ok_iff {constants : List Constant} {codeSize ip : Nat}
    {code : List Instruction} :
    verifyCode constants codeSize ip code = .ok () ↔
      ∀ instruction ∈ code, instruction.Valid constants codeSize := by
  induction code generalizing ip with
  | nil =>
      simp only [List.not_mem_nil, false_implies, implies_true, iff_true]
      rfl
  | cons instruction rest inductionHypothesis =>
      unfold verifyCode
      rw [Except.check_bind_eq_ok, List.forall_mem_cons, Instruction.verify_eq_ok_iff,
        inductionHypothesis]

/-- Verification accepts the units in the constant. -/
def Constant.Verified : Constant → Prop
  | .block body => body.verify = .ok ()
  | .classDescriptor descriptor =>
    ∀ method ∈ descriptor.methods ++ descriptor.classMethods, method.body.verify = .ok ()
  | _ => True

theorem locate_eq_ok_iff {location : String} {result : Except VerifyError Unit} :
    VerifyError.locate location result = .ok () ↔ result = .ok () := by
  cases result with
  | ok _ =>
      exact Iff.rfl
  | error fault =>
      constructor <;> intro impossible <;> cases impossible

theorem verifyMethods_eq_ok_iff {owner : String} {methods : List MethodDescriptor} :
    verifyMethods owner methods = .ok () ↔ ∀ method ∈ methods, method.body.verify = .ok () := by
  induction methods with
  | nil =>
      simp only [List.not_mem_nil, false_implies, implies_true, iff_true, verifyMethods]
      rfl
  | cons method rest inductionHypothesis =>
      obtain ⟨selector, parameters, body⟩ := method
      unfold verifyMethods
      rw [Except.check_bind_eq_ok, List.forall_mem_cons, locate_eq_ok_iff, inductionHypothesis]

theorem Constant.verify_eq_ok_iff {index : Nat} {constant : Constant} :
    constant.verify index = .ok () ↔ constant.Verified := by
  cases constant with
  | int _ | float _ | string _ | bool _ | nil =>
      unfold Constant.verify Constant.Verified
      simp only [iff_true]
      rfl
  | block body =>
      unfold Constant.verify
      exact locate_eq_ok_iff
  | classDescriptor descriptor =>
      obtain ⟨name, superclass, fields, classVars, methods, classMethods⟩ := descriptor
      unfold Constant.verify
      rw [Except.check_bind_eq_ok, verifyMethods_eq_ok_iff, verifyMethods_eq_ok_iff]
      exact List.forall_mem_append.symm

theorem verifyConstants_eq_ok_iff {index : Nat} {constants : List Constant} :
    verifyConstants index constants = .ok () ↔ ∀ constant ∈ constants, constant.Verified := by
  induction constants generalizing index with
  | nil =>
      simp only [List.not_mem_nil, false_implies, implies_true, iff_true, verifyConstants]
      rfl
  | cons constant rest inductionHypothesis =>
      unfold verifyConstants
      rw [Except.check_bind_eq_ok, List.forall_mem_cons, Constant.verify_eq_ok_iff,
        inductionHypothesis]

/-- Verification accepts a unit exactly if its instructions are valid and it accepts the units in
its constants. -/
theorem CodeUnit.verify_eq_ok_iff {unit : CodeUnit} :
    unit.verify = .ok () ↔
      (∀ instruction ∈ unit.code.toList, instruction.Valid unit.constants unit.code.size) ∧
        ∀ constant ∈ unit.constants, constant.Verified := by
  obtain ⟨code, constants⟩ := unit
  unfold CodeUnit.verify
  rw [Except.check_bind_eq_ok, verifyCode_eq_ok_iff, verifyConstants_eq_ok_iff]

end Missive
