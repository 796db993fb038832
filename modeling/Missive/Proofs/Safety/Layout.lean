import Missive.Compile.Lowering

/-!
# Code that finds what it needs

Compiled code has no jumps, so what lies on the stack before an instruction can be told from the
instructions before it.  A layout records this as far as it matters: how many operands there are,
and which of them are the receiver of the running method.

An instruction fits a layout when it finds the operands that it takes, and when its own operand
refers to something that the place in which the code stands provides: a constant of the right kind,
a context far enough outside, an instance with fields, a class.  A unit is safe when its
instructions fit one after the other, and when every unit in its pool is safe at its own place.
-/

namespace Missive

/-- The place in which code stands. -/
structure Setting where
  /-- How many blocks there are around the code, within the method or the program. -/
  depth : Nat
  /-- The side of the class to which the method belongs, in a method. -/
  side : Option Bool

namespace Setting

/-- The place of the statements of a program. -/
def topLevel : Setting := ⟨0, none⟩

/-- The place of the statements of a method. -/
def method (classSide : Bool) : Setting := ⟨0, some classSide⟩

/-- The place inside a block. -/
def inside (setting : Setting) : Setting := { setting with depth := setting.depth + 1 }

end Setting

/-- The operands on a stack, the latest first: whether they are known to be the receiver. -/
abbrev Layout := List Bool

namespace Constant

/-- The constant is a value and neither code nor the description of a class. -/
def isScalar : Constant → Bool
  | .block _ | .classDescriptor _ => false
  | _ => true

end Constant

/-- What the use of a variable does to a layout: its value comes on top, or the value on top is
stored and stays. -/
inductive Access.Moves : Access → Layout → Layout → Prop
  | load {before : Layout} : Moves .load before (false :: before)
  | store {top : Bool} {before : Layout} : Moves .store (top :: before) (top :: before)

/-- The instruction finds what it needs and turns the first layout into the second. -/
inductive Fits (setting : Setting) (pool : List Constant) : Instruction → Layout → Layout → Prop
  | pushConstant {index : Nat} {constant : Constant} {before : Layout} :
      index ≤ Instruction.maxPackedIndex → pool[index]? = some constant →
      constant.isScalar = true →
      Fits setting pool (.indexed .pushConstant index) before (false :: before)
  | pushSimple {opcode : Opcode} {before : Layout} :
      opcode = .pushNil ∨ opcode = .pushTrue ∨ opcode = .pushFalse →
      Fits setting pool (.bare opcode) before (false :: before)
  | pushSelf {before : Layout} : Fits setting pool (.bare .pushSelf) before (true :: before)
  | pop {top : Bool} {before : Layout} : Fits setting pool (.bare .pop) (top :: before) before
  | dup {top : Bool} {before : Layout} :
      Fits setting pool (.bare .dup) (top :: before) (top :: top :: before)
  | slot {access : Access} {index : Nat} {before after : Layout} : access.Moves before after →
      Fits setting pool (.indexed (access.opcode (.slot index)) index) before after
  | outer {access : Access} {slot depth : Nat} {before after : Layout} :
      access.Moves before after → depth ≤ Instruction.maxPackedCount → depth ≤ setting.depth →
      Fits setting pool (.packed (access.opcode (.outer slot depth)) slot depth) before after
  | field {access : Access} {index : Nat} {before after : Layout} : access.Moves before after →
      setting.side = some false →
      Fits setting pool (.indexed (access.opcode (.field index)) index) before after
  | classVar {access : Access} {index : Nat} {name : String} {before after : Layout} :
      access.Moves before after → setting.side.isSome = true →
      index ≤ Instruction.maxPackedIndex → pool[index]? = some (.string name) →
      Fits setting pool (.indexed (access.opcode .classVar) index) before after
  | global {access : Access} {index : Nat} {name : String} {before after : Layout} :
      access.Moves before after → index ≤ Instruction.maxPackedIndex →
      pool[index]? = some (.string name) →
      Fits setting pool (.indexed (access.opcode .global) index) before after
  | send {index : Nat} {selector : Selector} {arguments : Layout} {receiver : Bool}
      {before : Layout} : index ≤ Instruction.maxPackedIndex →
      pool[index]? = some (.string selector) →
      arguments.length ≤ Instruction.maxPackedCount → selector.arity = arguments.length →
      Fits setting pool (.packed .send index arguments.length)
        (arguments ++ receiver :: before) (false :: before)
  | superSend {index : Nat} {selector : Selector} {arguments : Layout} {before : Layout} :
      setting.side.isSome = true → index ≤ Instruction.maxPackedIndex →
      pool[index]? = some (.string selector) →
      arguments.length ≤ Instruction.maxPackedCount → selector.arity = arguments.length →
      Fits setting pool (.packed .superSend index arguments.length)
        (arguments ++ true :: before) (false :: before)
  | defineClass {index : Nat} {descriptor : ClassDescriptor} {before : Layout} :
      index ≤ Instruction.maxPackedIndex → pool[index]? = some (.classDescriptor descriptor) →
      Fits setting pool (.indexed .defineClass index) before (false :: before)
  | makeClosure {index count : Nat} {body : CodeUnit} {before : Layout} :
      index ≤ Instruction.maxPackedIndex → count ≤ Instruction.maxPackedCount →
      pool[index]? = some (.block body) →
      Fits setting pool (.packed .makeClosure index count) before (false :: before)
  | makeArray {count : Nat} {items before : Layout} : count < 0x80000000 → items.length = count →
      Fits setting pool (.indexed .makeArray count) (items ++ before) (false :: before)
  | makeDictionary {count : Nat} {items before : Layout} : count < 0x80000000 →
      items.length = 2 * count →
      Fits setting pool (.indexed .makeDictionary count) (items ++ before) (false :: before)
  | return {top : Bool} {before : Layout} :
      Fits setting pool (.bare .return) (top :: before) before
  | nonLocalReturn {top : Bool} {before : Layout} :
      Fits setting pool (.bare .nonLocalReturn) (top :: before) before

/-- The instructions fit one after the other. -/
inductive Flows (setting : Setting) (pool : List Constant) :
    List Instruction → Layout → Layout → Prop
  | nil {layout : Layout} : Flows setting pool [] layout layout
  | cons {instruction : Instruction} {rest : List Instruction} {before between after : Layout} :
      Fits setting pool instruction before between → Flows setting pool rest between after →
      Flows setting pool (instruction :: rest) before after

theorem Flows.append {setting : Setting} {pool : List Constant}
    {first second : List Instruction} {before between after : Layout}
    (earlier : Flows setting pool first before between)
    (later : Flows setting pool second between after) :
    Flows setting pool (first ++ second) before after := by
  induction earlier with
  | nil =>
      exact later
  | cons fits _ inductionHypothesis =>
      exact .cons fits (inductionHypothesis later)

theorem drop_eq_cons {code : Array Instruction} {ip : Nat} {instruction : Instruction}
    (next : code[ip]? = some instruction) :
    code.toList.drop ip = instruction :: code.toList.drop (ip + 1) := by
  obtain ⟨inside, isNext⟩ := List.getElem?_eq_some_iff.mp (Array.getElem?_toList.trans next)
  rw [← isNext, List.getElem_cons_drop]

/-- The next instruction fits, and what comes after it goes on from where it leads. -/
theorem Flows.next {setting : Setting} {pool : List Constant} {code : Array Instruction} {ip : Nat}
    {instruction : Instruction} {before after : Layout}
    (flows : Flows setting pool (code.toList.drop ip) before after)
    (next : code[ip]? = some instruction) :
    ∃ between, Fits setting pool instruction before between ∧
      Flows setting pool (code.toList.drop (ip + 1)) between after := by
  rw [drop_eq_cons next] at flows
  cases flows with
  | cons fits further =>
      exact ⟨_, fits, further⟩

mutual

/-- The unit can run at the place, from its start with an empty stack, and leaves nothing on it. -/
inductive CodeUnit.Safe : Setting → CodeUnit → Prop
  | intro {setting : Setting} {unit : CodeUnit} :
      Flows setting unit.constants unit.code.toList [] [] →
      (∀ constant ∈ unit.constants, Constant.Safe setting constant) → CodeUnit.Safe setting unit

/-- The units in the constant can run at the places for which they are meant. -/
inductive Constant.Safe : Setting → Constant → Prop
  | scalar {setting : Setting} {constant : Constant} : constant.isScalar = true →
      Constant.Safe setting constant
  | block {setting : Setting} {body : CodeUnit} : CodeUnit.Safe setting.inside body →
      Constant.Safe setting (.block body)
  | classDescriptor {setting : Setting} {descriptor : ClassDescriptor} :
      (∀ method ∈ descriptor.methods, CodeUnit.Safe (.method false) method.body) →
      (∀ method ∈ descriptor.classMethods, CodeUnit.Safe (.method true) method.body) →
      Constant.Safe setting (.classDescriptor descriptor)

end

end Missive
