import Missive.Code.Listing

/-!
# Statistics of code units

How often each operation occurs in a unit and in all units nested in it.
-/

namespace Missive

mutual

/-- The instructions of a unit and of every unit nested in it. -/
def CodeUnit.allInstructions : CodeUnit → List Instruction
  | ⟨code, constants⟩ => code.toList ++ constantInstructions constants

/-- The instructions in the constants of a pool. -/
def constantInstructions : List Constant → List Instruction
  | [] => []
  | constant :: rest => constant.allInstructions ++ constantInstructions rest

/-- The instructions in a constant. -/
def Constant.allInstructions : Constant → List Instruction
  | .block body => body.allInstructions
  | .classDescriptor ⟨_, _, _, _, methods, classMethods⟩ =>
    methodInstructions methods ++ methodInstructions classMethods
  | _ => []

/-- The instructions of the methods on one side of a class. -/
def methodInstructions : List MethodDescriptor → List Instruction
  | [] => []
  | ⟨_, _, body⟩ :: rest => body.allInstructions ++ methodInstructions rest

end

namespace CodeUnit

/-- How often the operation occurs in the unit and in all units nested in it. -/
def opcodeCount (codeUnit : CodeUnit) (opcode : Opcode) : Nat :=
  codeUnit.allInstructions.countP fun instruction => instruction.opcode == opcode

/-- The operations that occur, with how often they do, in the order of their bytes. -/
def opcodeCounts (codeUnit : CodeUnit) : List (Opcode × Nat) :=
  (Opcode.all.map fun opcode => (opcode, codeUnit.opcodeCount opcode)).filter (0 < ·.2)

/-- Frequent operations come first, and equally frequent ones by their word. -/
def moreFrequent (a b : Opcode × Nat) : Bool :=
  b.2 < a.2 || (a.2 == b.2 && decide (a.1.mnemonic ≤ b.1.mnemonic))

/-- The share of a part in a total as a percentage. -/
def percentage (part total : Nat) : Binary64 :=
  ((Binary64.ofInt part).div (Binary64.ofInt total)).mul (Binary64.ofInt 100)

/-- One line of the statistics. -/
def statisticsLine (total : Nat) (entry : Opcode × Nat) : String :=
  "  " ++ Listing.padRight 14 entry.1.mnemonic ++ " " ++ Listing.padLeft 4 (toString entry.2)
    ++ " (" ++ Listing.padLeft 5 (percentage entry.2 total).oneDecimal ++ "%)\n"

/-- The statistics of a unit with its ten most frequent operations. -/
def statisticsText (codeUnit : CodeUnit) : String :=
  let counts := codeUnit.opcodeCounts
  let total := codeUnit.allInstructions.length
  let ranked := (counts.mergeSort moreFrequent).take 10
  "=== BYTECODE STATISTICS ===\n\nInstructions:     " ++ toString total
    ++ "\n\nOpcode frequency:\n" ++ String.join (ranked.map (statisticsLine total))

end CodeUnit

end Missive
