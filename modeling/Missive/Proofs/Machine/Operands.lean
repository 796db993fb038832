import Missive.Machine.Execution

/-!
# What instructions are given

An operand has 32 bits and a sign.  A number below `2 ^ 31` comes back from it as it was, and so do
an index and a count that were packed together.  The count comes back even where the index was too
large, because it lies in the lowest byte.

The objects are the other thing that an instruction is given.  One that only reads them leaves the
machine as it is, whether it goes on or crashes.
-/

namespace Missive

theorem toNat_ofNat_toUInt32 (number : Nat) :
    (Int32.ofNat number).toUInt32.toNat = number % 0x100000000 := by
  change (BitVec.ofNat 32 number).toNat = _
  rw [BitVec.toNat_ofNat]

namespace Instruction

theorem unpack_packedOperand {index count : Nat} (indexFits : index ≤ maxPackedIndex)
    (countFits : count ≤ maxPackedCount) : unpack (packedOperand index count) = (index, count) := by
  unfold maxPackedIndex at indexFits
  unfold maxPackedCount at countFits
  unfold unpack packedOperand
  rw [toNat_ofNat_toUInt32]
  refine Prod.ext ?_ ?_
  · dsimp only
    omega
  · dsimp only
    omega

theorem unpack_packedOperand_count (index : Nat) {count : Nat}
    (countFits : count ≤ maxPackedCount) : (unpack (packedOperand index count)).2 = count := by
  unfold maxPackedCount at countFits
  unfold unpack packedOperand
  rw [toNat_ofNat_toUInt32]
  dsimp only
  omega

end Instruction

namespace Exec

theorem operandIndex?_ofNat {index : Nat} (fits : index < 0x80000000) :
    operandIndex? (Int32.ofNat index) = some index := by
  have nonnegative : ¬ Int32.ofNat index < 0 := by
    rw [Int32.lt_iff_toInt_lt, Int32.toInt_ofNat_of_lt fits]
    simp
  unfold operandIndex?
  rw [if_neg nonnegative, Int32.toInt_ofNat_of_lt fits, Int.toNat_natCast]

theorem elementCount_ofNat {number : Nat} (fits : number < 0x80000000) :
    elementCount (Int32.ofNat number) = number := by
  unfold elementCount
  have wide : (Int32.ofNat number).toInt64 = Int64.ofNat number := by
    rw [← Int64.toInt_inj, Int32.toInt_toInt64, Int32.toInt_ofNat_of_lt fits,
      Int64.toInt_ofNat_of_lt (by omega)]
  rw [wide]
  change (BitVec.ofNat 64 number).toNat = number
  rw [BitVec.toNat_ofNat]
  omega

/-- What follows an outcome of reading the objects. -/
theorem onStore_settle_bind {α β : Type} (outcome : Store → Except Crash α) (next : α → Exec β)
    (machine : Machine) :
    ((onStore do settle (outcome (← get))) >>= next) machine =
      match outcome machine.store with
      | .ok result => next result machine
      | .error crash => .error (.crash crash) machine := by
  have asked : ((onStore do settle (outcome (← get))) >>= next) machine =
    (onStore (settle (outcome machine.store)) >>= next) machine := rfl
  rw [asked]
  cases outcome machine.store with
  | ok _ | error _ =>
      rfl

end Exec

end Missive
