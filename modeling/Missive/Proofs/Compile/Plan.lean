import Mathlib.Algebra.Group.Nat.Defs
import Mathlib.Data.List.Forall2
import Mathlib.Data.List.Perm.Subperm
import Missive.Proofs.Compile.Lowering
import Missive.Proofs.Safety.Layout

/-!
# Code before its constants have a place

Lowering does two things at once: it chooses the instructions of a body, and it looks for the
places of their constants in the pool.  The choice does not depend on the pool.  Here the two are
taken apart.  The *plan* of an expression is a list of operations that carry their constants with
them, and `assemble` puts them one after the other into a unit.  An expression is lowered exactly
if it has a plan and the plan can be assembled.

So what lowering adds to a unit can be read off a list, and the same plan can be compared in two
units: it denotes the same constants in both, and it can be assembled where the pool is smaller.
-/

namespace Missive

/-- The operand refers neither to a constant nor to another instruction. -/
def OperandKind.isPlain : OperandKind → Bool
  | .none | .slot | .outer | .field | .count => true
  | .constant | .name | .send | .target | .classDescriptor | .closure => false

/-- An instruction before its constant, if it has one, has a place in the pool. -/
inductive Op where
  /-- The operand refers to no constant. -/
  | bare (instruction : Instruction)
  /-- The operand is the index of a constant, possibly with a count. -/
  | pooled (opcode : Opcode) (constant : Constant) (count : Option Nat)

namespace Op

/-- The instruction that refers to a constant at an index. -/
def placed (opcode : Opcode) (index : Nat) : Option Nat → Instruction
  | none => .indexed opcode index
  | some count => .packed opcode index count

/-- Appends the instruction that refers to a constant at an index. -/
def emitPlaced (opcode : Opcode) (index : Nat) : Option Nat → Lower Unit
  | none => emit (.indexed opcode index)
  | some count => emitPacked opcode index count

/-- Adds the constant to the pool and the instruction to the code. -/
def add : Op → Lower Unit
  | .bare instruction => emit instruction
  | .pooled opcode constant count => do emitPlaced opcode (← addConstant constant) count

/-- The count, if there is one, fits into an operand. -/
def CountFits (count : Option Nat) : Prop := ∀ number ∈ count, number ≤ Instruction.maxPackedCount

theorem emitPlaced_eq_ok {opcode : Opcode} {index : Nat} {count : Option Nat}
    {unit grown : CodeUnit} (small : index ≤ Instruction.maxPackedIndex) :
    emitPlaced opcode index count unit = .ok ((), grown) ↔
      CountFits count ∧ grown = unit.add (placed opcode index count) := by
  cases count with
  | none =>
      exact Lower.emit_eq_ok.trans ⟨fun same => ⟨nofun, same⟩, And.right⟩
  | some count =>
      refine Lower.emitPacked_eq_ok.trans ⟨?_, ?_⟩
      · rintro ⟨few, _, same⟩
        refine ⟨?_, same⟩
        rintro _ ⟨⟩
        exact few
      · rintro ⟨few, same⟩
        exact ⟨few count rfl, small, same⟩

/-- The constant is added, and then the instruction that refers to it. -/
theorem add_pooled_eq_ok {opcode : Opcode} {constant : Constant} {count : Option Nat}
    {unit grown : CodeUnit} (poolFits : unit.PoolFits) :
    (Op.pooled opcode constant count).add unit = .ok ((), grown) ↔
      CountFits count ∧ ∃ index between, addConstant constant unit = .ok (index, between) ∧
        grown = between.add (placed opcode index count) := by
  constructor
  · intro added
    obtain ⟨index, between, constantAdded, emitted⟩ := Lower.bind_eq_ok.mp added
    obtain ⟨few, same⟩ := (emitPlaced_eq_ok (addConstant_ok poolFits constantAdded).1).mp emitted
    exact ⟨few, index, between, constantAdded, same⟩
  · rintro ⟨few, index, between, constantAdded, same⟩
    exact Lower.bind_eq_ok.mpr ⟨index, between, constantAdded,
      (emitPlaced_eq_ok (addConstant_ok poolFits constantAdded).1).mpr ⟨few, same⟩⟩

/-- The count of the operation, if it has one, fits into an operand. -/
def Fits : Op → Prop
  | .bare _ => True
  | .pooled _ _ count => CountFits count

theorem fits_counted_iff {opcode : Opcode} {constant : Constant} {count : Nat} :
    (Op.pooled opcode constant (some count)).Fits ↔ count ≤ Instruction.maxPackedCount := by
  refine ⟨fun fits => fits count rfl, ?_⟩
  rintro few _ ⟨⟩
  exact few

/-- The instruction says in a unit with the pool what the operation says. -/
inductive Denotes (pool : List Constant) : Op → Instruction → Prop
  | bare {instruction : Instruction} : Denotes pool (.bare instruction) instruction
  | pooled {opcode : Opcode} {constant : Constant} {count : Option Nat} {index : Nat} :
      index ≤ Instruction.maxPackedIndex → pool[index]? = some constant →
      Denotes pool (.pooled opcode constant count) (placed opcode index count)

def opcode : Op → Opcode
  | .bare instruction => instruction.opcode
  | .pooled opcode _ _ => opcode

theorem Denotes.opcode {pool : List Constant} {op : Op} {instruction : Instruction}
    (denotes : op.Denotes pool instruction) : op.opcode = instruction.opcode := by
  cases denotes with
  | bare =>
      rfl
  | @pooled opcode constant count index _ _ =>
      cases count <;> rfl

/-- The constants of an operation. -/
def constants : Op → List Constant
  | .bare _ => []
  | .pooled _ constant _ => [constant]

/-- The operation refers to no constant, or to one of the kind that it needs. -/
inductive Proper : Op → Prop
  | bare {instruction : Instruction} : instruction.opcode.operandKind.isPlain = true →
      instruction.opcode ≠ .nonLocalReturn → Proper (.bare instruction)
  | literal {constant : Constant} : constant.isScalar = true →
      Proper (.pooled .pushConstant constant none)
  | name {opcode : Opcode} {text : String} : opcode.operandKind = .name →
      Proper (.pooled opcode (.string text) none)
  | message {opcode : Opcode} {selector : Selector} {count : Nat} :
      opcode.operandKind = .send → count ≤ Instruction.maxPackedCount →
      Proper (.pooled opcode (.string selector) (some count))
  | block {body : CodeUnit} {count : Nat} : count ≤ Instruction.maxPackedCount →
      Proper (.pooled .makeClosure (.block body) (some count))
  | classDescriptor {descriptor : ClassDescriptor} :
      Proper (.pooled .defineClass (.classDescriptor descriptor) none)

end Op

/-- Adds operations one after the other. -/
def assemble : List Op → Lower Unit
  | [] => pure ()
  | op :: rest => do
    op.add
    assemble rest

/-- The operations for a piece of a program, if it is accepted. -/
abbrev Plan := Except CompileError (List Op)

namespace Plan

def one (op : Op) : Plan := pure [op]

def followedBy (first next : Plan) : Plan := do
  let firstOps ← first
  let nextOps ← next
  pure (firstOps ++ nextOps)

theorem followedBy_eq_ok {first next : Plan} {ops : List Op} :
    first.followedBy next = .ok ops ↔
      ∃ firstOps nextOps, first = .ok firstOps ∧ next = .ok nextOps ∧
        ops = firstOps ++ nextOps := by
  constructor
  · intro planned
    obtain ⟨firstOps, firstPlanned, planned⟩ := Except.bind_eq_ok.mp planned
    obtain ⟨nextOps, nextPlanned, wrapped⟩ := Except.bind_eq_ok.mp planned
    cases wrapped
    exact ⟨firstOps, nextOps, firstPlanned, nextPlanned, rfl⟩
  · rintro ⟨firstOps, nextOps, rfl, rfl, rfl⟩
    rfl

/-- A check in front of a plan. -/
theorem check_eq_ok {condition : Prop} [Decidable condition] {error : CompileError} {plan : Plan}
    {ops : List Op} :
    (if condition then throw error else plan) = .ok ops ↔ ¬ condition ∧ plan = .ok ops := by
  by_cases holds : condition
  · simp only [holds, if_true, not_true, false_and, iff_false]
    intro impossible
    cases impossible
  · simp [holds]

end Plan

/-! ## The plan of an expression -/

/-- Pushes the value of a literal. -/
def Literal.op : Literal → Op
  | .bool true => .bare (.bare .pushTrue)
  | .bool false => .bare (.bare .pushFalse)
  | .nil => .bare (.bare .pushNil)
  | .int value => .pooled .pushConstant (.int value) none
  | .float value => .pooled .pushConstant (.float value) none
  | .string text => .pooled .pushConstant (.string text) none
  | .symbol name => .pooled .pushConstant (.string name) none

/-- Uses the variable at a location. -/
def Access.op (access : Access) (name : String) (location : Location) : Op :=
  let opcode := access.opcode location
  match location with
  | .slot index | .field index => .bare (.indexed opcode index)
  | .outer slot depth => .bare (.packed opcode slot depth)
  | .classVar | .global => .pooled opcode (.string name) none

/-- What a name denotes, if an instruction can say so. -/
def Surroundings.place (surroundings : Surroundings) (name : String) :
    Except CompileError Location := do
  let location ← surroundings.resolve name
  match location with
  | .outer slot depth =>
    match Instruction.pack slot depth with
    | .ok _ => return location
    | .error cause => throw (.crash cause)
  | .slot _ | .field _ | .classVar | .global => return location

/-- The operand of an instruction has room for the location. -/
def Location.Roomy : Location → Prop
  | .outer place _ => place < 2 ^ 23
  | .slot _ | .field _ | .classVar | .global => True

theorem Surroundings.place_eq_ok {surroundings : Surroundings} {name : String}
    {location : Location} :
    surroundings.place name = .ok location ↔
      surroundings.resolve name = .ok location ∧ location.Roomy := by
  unfold place
  constructor
  · intro placed
    obtain ⟨found, resolved, placed⟩ := Except.bind_eq_ok.mp placed
    rw [resolved]
    cases found with
    | slot _ | field _ | classVar | global =>
        cases placed
        exact ⟨rfl, trivial⟩
    | outer slot depth =>
        dsimp only at placed
        split at placed
        · rename_i packed
          cases placed
          exact ⟨rfl, Nat.lt_succ_of_le (Instruction.pack_eq_ok.mp packed).2.1⟩
        · cases placed
  · rintro ⟨resolved, roomy⟩
    refine Except.bind_eq_ok.mpr ⟨location, resolved, ?_⟩
    cases location with
    | slot _ | field _ | classVar | global =>
        rfl
    | outer slot depth =>
        have near := (resolve_eq_outer_iff.mp resolved).2.2
        dsimp only
        rw [Instruction.pack_eq_ok.mpr ⟨near, Nat.le_of_lt_succ roomy, rfl⟩]
        rfl

def Access.plan (access : Access) (surroundings : Surroundings) (name : String) : Plan := do
  let location ← surroundings.place name
  Plan.one (access.op name location)

def namePlan (surroundings : Surroundings) (name : String) : Plan :=
  if name = "self" then Plan.one (.bare (.bare .pushSelf))
  else if name = "super" then throw .bareSuper
  else if name = "nil" then Plan.one (.bare (.bare .pushNil))
  else if name = "true" then Plan.one (.bare (.bare .pushTrue))
  else if name = "false" then Plan.one (.bare (.bare .pushFalse))
  else Access.load.plan surroundings name

/-- Pushes the receiver for a message to `super`. -/
def superPlan (surroundings : Surroundings) : Plan :=
  if surroundings.owner.isNone then throw .superOutsideMethod
  else Plan.one (.bare (.bare .pushSelf))

/-- The body of a block or of a method as a unit of its own. -/
def Plan.toUnit (plan : Plan) : Except CompileError CodeUnit := do
  let ops ← plan
  let (_, unit) ← assemble ops CodeUnit.empty
  pure unit

def emptyBodyPlan (kind : BodyKind) : Plan :=
  pure [.bare (emptyBodyPush kind), .bare (.bare .return)]

mutual

def Expr.plan (surroundings : Surroundings) : Expr → Plan
  | .literal value => Plan.one value.op
  | .var name => namePlan surroundings name
  | .self => Plan.one (.bare (.bare .pushSelf))
  | .super => throw .bareSuper
  | .assign target value =>
    if isPseudoVariable target then throw (.invalidAssignment target)
    else (value.plan surroundings).followedBy (Access.store.plan surroundings target)
  | .send receiver selector arguments => do
    checkArity selector arguments.length
    Plan.followedBy
      (if receiver.isSuper then superPlan surroundings else receiver.plan surroundings)
      ((planAll surroundings arguments).followedBy
        (Plan.one (.pooled (if receiver.isSuper then .superSend else .send) (.string selector)
          (some arguments.length))))
  | .cascade receiver messages =>
    if messages.isEmpty then throw .emptyCascade
    else if receiver.isSuper then throw .superCascade
    else (receiver.plan surroundings).followedBy (planMessages surroundings messages)
  | .block parameters body =>
    if Instruction.maxPackedCount < parameters.length then
      throw (.tooManyArguments "<block>" parameters.length)
    else do
      let unit ← (planStatements (surroundings.inBlock parameters) true body).toUnit
      Plan.one (.pooled .makeClosure (.block unit) (some parameters.length))
  | .array elements =>
    (planAll surroundings elements).followedBy
      (Plan.one (.bare (.indexed .makeArray elements.length)))
  | .dictionary entries =>
    (planEntries surroundings entries).followedBy
      (Plan.one (.bare (.indexed .makeDictionary entries.length)))

def planAll (surroundings : Surroundings) : List Expr → Plan
  | [] => pure []
  | expr :: rest => (expr.plan surroundings).followedBy (planAll surroundings rest)

def planMessages (surroundings : Surroundings) : List Message → Plan
  | [] => pure []
  | ⟨selector, arguments⟩ :: rest => do
    checkArity selector arguments.length
    (Plan.one (.bare (.bare .dup))).followedBy <| (planAll surroundings arguments).followedBy <|
      (Plan.one (.pooled .send (.string selector) (some arguments.length))).followedBy <|
        (Plan.one (.bare (.bare .pop))).followedBy (planMessages surroundings rest)

def planEntries (surroundings : Surroundings) : List Entry → Plan
  | [] => pure []
  | ⟨key, value⟩ :: rest =>
    (key.plan surroundings).followedBy <| (value.plan surroundings).followedBy
      (planEntries surroundings rest)

def planStatements (surroundings : Surroundings) (leading : Bool) : List Stmt → Plan
  | [] => if leading then emptyBodyPlan surroundings.kind else pure []
  | .declare names :: rest =>
    if leading then do
      let extended ← surroundings.declareAll names
      planStatements extended true rest
    else throw (.lateDeclaration (declaredName names))
  | .define definition :: _ => throw (.classInBody definition.name)
  | .expr value :: rest =>
    (value.plan surroundings).followedBy <|
      (Plan.one (.bare (afterStatement rest.isEmpty))).followedBy
        (planStatements surroundings false rest)
  | .return value :: rest =>
    (value.plan surroundings).followedBy <|
      (Plan.one (.bare (.bare (returnOpcode surroundings.kind)))).followedBy
        (planStatements surroundings false rest)

end

/-! ## Lowering is planning and assembling -/

theorem assemble_append {first next : List Op} {unit grown : CodeUnit} :
    assemble (first ++ next) unit = .ok ((), grown) ↔
      ∃ between, assemble first unit = .ok ((), between) ∧
        assemble next between = .ok ((), grown) := by
  induction first generalizing unit with
  | nil =>
      constructor
      · intro assembled
        exact ⟨unit, rfl, assembled⟩
      · rintro ⟨between, same, assembled⟩
        cases same
        exact assembled
  | cons op rest inductionHypothesis =>
      constructor
      · intro assembled
        obtain ⟨⟨⟩, added, opAdded, assembled⟩ := Lower.bind_eq_ok.mp assembled
        obtain ⟨between, restAssembled, nextAssembled⟩ := inductionHypothesis.mp assembled
        exact ⟨between, Lower.bind_eq_ok.mpr ⟨(), added, opAdded, restAssembled⟩, nextAssembled⟩
      · rintro ⟨between, firstAssembled, nextAssembled⟩
        obtain ⟨⟨⟩, added, opAdded, restAssembled⟩ := Lower.bind_eq_ok.mp firstAssembled
        exact Lower.bind_eq_ok.mpr
          ⟨(), added, opAdded, inductionHypothesis.mpr ⟨between, restAssembled, nextAssembled⟩⟩

/-- The computation succeeds exactly if there is a plan that can be assembled, with the same
result. -/
def Realizes (lower : Lower Unit) (plan : Plan) : Prop :=
  ∀ unit grown : CodeUnit, lower unit = .ok ((), grown) ↔
    ∃ ops, plan = .ok ops ∧ assemble ops unit = .ok ((), grown)

section Rules

variable {lower next : Lower Unit} {plan nextPlan : Plan}

theorem realizes_nothing : Realizes (pure ()) (pure []) := by
  intro unit grown
  constructor
  · intro same
    exact ⟨[], rfl, same⟩
  · rintro ⟨ops, planned, assembled⟩
    cases planned
    exact assembled

theorem realizes_one (op : Op) : Realizes op.add (Plan.one op) := by
  intro unit grown
  have single : assemble [op] unit = .ok ((), grown) ↔ op.add unit = .ok ((), grown) := by
    constructor
    · intro assembled
      obtain ⟨⟨⟩, added, opAdded, same⟩ := Lower.bind_eq_ok.mp assembled
      cases same
      exact opAdded
    · intro opAdded
      exact Lower.bind_eq_ok.mpr ⟨(), grown, opAdded, rfl⟩
  constructor
  · intro opAdded
    exact ⟨[op], rfl, single.mpr opAdded⟩
  · rintro ⟨ops, planned, assembled⟩
    cases planned
    exact single.mp assembled

theorem realizes_throw (error other : CompileError) :
    Realizes (throw error) (throw other) := by
  intro unit grown
  constructor
  · intro impossible
    cases impossible
  · rintro ⟨ops, impossible, _⟩
    cases impossible

theorem Realizes.followedBy (realizes : Realizes lower plan)
    (nextRealizes : Realizes next nextPlan) :
    Realizes (do lower; next) (plan.followedBy nextPlan) := by
  intro unit grown
  constructor
  · intro lowered
    obtain ⟨⟨⟩, between, firstLowered, nextLowered⟩ := Lower.bind_eq_ok.mp lowered
    obtain ⟨ops, planned, assembled⟩ := (realizes _ _).mp firstLowered
    obtain ⟨nextOps, nextPlanned, nextAssembled⟩ := (nextRealizes _ _).mp nextLowered
    exact ⟨ops ++ nextOps, Plan.followedBy_eq_ok.mpr ⟨ops, nextOps, planned, nextPlanned, rfl⟩,
      assemble_append.mpr ⟨between, assembled, nextAssembled⟩⟩
  · rintro ⟨all, allPlanned, allAssembled⟩
    obtain ⟨ops, nextOps, planned, nextPlanned, rfl⟩ := Plan.followedBy_eq_ok.mp allPlanned
    obtain ⟨between, assembled, nextAssembled⟩ := assemble_append.mp allAssembled
    exact Lower.bind_eq_ok.mpr ⟨(), between, (realizes _ _).mpr ⟨ops, planned, assembled⟩,
      (nextRealizes _ _).mpr ⟨nextOps, nextPlanned, nextAssembled⟩⟩

theorem Realizes.check {condition : Prop} [Decidable condition] {error other : CompileError}
    {f : PUnit → Lower Unit} (realizes : Realizes lower plan) :
    Realizes (if condition then throw error >>= f else lower)
      (if condition then throw other else plan) := by
  intro unit grown
  rw [Lower.check_eq_ok, realizes _ _]
  constructor
  · rintro ⟨passed, ops, planned, assembled⟩
    exact ⟨ops, Plan.check_eq_ok.mpr ⟨passed, planned⟩, assembled⟩
  · rintro ⟨ops, planned, assembled⟩
    obtain ⟨passed, planned⟩ := Plan.check_eq_ok.mp planned
    exact ⟨passed, ops, planned, assembled⟩

/-- A question that does not concern the unit is asked before anything is planned. -/
theorem realizes_ask {α : Type} {question : Except CompileError α} {lower : α → Lower Unit}
    {plan : α → Plan} (realizes : ∀ answer, Realizes (lower answer) (plan answer)) :
    Realizes (do lower (← liftM question)) (question >>= plan) := by
  intro unit grown
  constructor
  · intro lowered
    obtain ⟨answer, between, answered, lowered⟩ := Lower.bind_eq_ok.mp lowered
    obtain ⟨isAnswer, rfl⟩ := Lower.lift_eq_ok.mp answered
    obtain ⟨ops, planned, assembled⟩ := (realizes answer _ _).mp lowered
    exact ⟨ops, Except.bind_eq_ok.mpr ⟨answer, isAnswer, planned⟩, assembled⟩
  · rintro ⟨ops, planned, assembled⟩
    obtain ⟨answer, isAnswer, planned⟩ := Except.bind_eq_ok.mp planned
    exact Lower.bind_eq_ok.mpr ⟨answer, unit, Lower.lift_eq_ok.mpr ⟨isAnswer, rfl⟩,
      (realizes answer _ _).mpr ⟨ops, planned, assembled⟩⟩

end Rules

theorem realizes_literal (value : Literal) : Realizes (lowerLiteral value) (Plan.one value.op) := by
  cases value with
  | bool value =>
      cases value with
      | true | false =>
          exact realizes_one (Op.bare _)
  | nil =>
      exact realizes_one (Op.bare _)
  | int _ | float _ | string _ | symbol _ =>
      exact realizes_one (.pooled _ _ none)

theorem realizes_access (surroundings : Surroundings) (access : Access) (name : String) :
    Realizes (lowerAccess surroundings access name) (access.plan surroundings name) := by
  unfold Access.plan Surroundings.place
  rw [bind_assoc]
  refine realizes_ask fun location => ?_
  cases location with
  | slot _ | field _ =>
      exact realizes_one (.bare _)
  | outer slot depth =>
      dsimp only
      unfold emitPacked
      cases packed : Instruction.pack slot depth with
      | error cause =>
          exact realizes_throw _ _
      | ok operand =>
          obtain ⟨_, _, rfl⟩ := Instruction.pack_eq_ok.mp packed
          exact realizes_one (.bare _)
  | classVar | global =>
      exact realizes_one (.pooled _ _ none)

theorem realizes_name (surroundings : Surroundings) (name : String) :
    Realizes (lowerName surroundings name) (namePlan surroundings name) := by
  unfold lowerName namePlan
  split
  · exact realizes_one (.bare _)
  split
  · exact realizes_throw _ _
  split
  · exact realizes_literal .nil
  split
  · exact realizes_literal (.bool true)
  split
  · exact realizes_literal (.bool false)
  exact realizes_access surroundings .load name

theorem realizes_emptyBody (kind : BodyKind) :
    Realizes (emitEmptyBody kind) (emptyBodyPlan kind) := by
  cases kind with
  | topLevel | method | block =>
      exact (realizes_one (.bare _)).followedBy (realizes_one (.bare _))

/-- A body becomes a unit of its own by its plan. -/
theorem Realizes.toUnit {lower : Lower Unit} {plan : Plan} (realizes : Realizes lower plan)
    {unit : CodeUnit} :
    plan.toUnit = .ok unit ↔ lower .empty = .ok ((), unit) := by
  rw [realizes _ _]
  constructor
  · intro planned
    obtain ⟨ops, opsPlanned, planned⟩ := Except.bind_eq_ok.mp planned
    obtain ⟨⟨⟨⟩, reached⟩, assembled, wrapped⟩ := Except.bind_eq_ok.mp planned
    cases wrapped
    exact ⟨ops, opsPlanned, assembled⟩
  · rintro ⟨ops, opsPlanned, assembled⟩
    exact Except.bind_eq_ok.mpr ⟨ops, opsPlanned,
      Except.bind_eq_ok.mpr ⟨((), unit), assembled, rfl⟩⟩

theorem realizes_super (surroundings : Surroundings) {next : Lower Unit} {nextPlan : Plan}
    (nextRealizes : Realizes next nextPlan) :
    Realizes
      (if surroundings.owner.isNone then
        (throw .superOutsideMethod : Lower PUnit) >>= fun _ =>
          emit (.bare .pushSelf) >>= fun _ => next
      else emit (.bare .pushSelf) >>= fun _ => next)
      ((superPlan surroundings).followedBy nextPlan) := by
  have pushed := (realizes_one (.bare (.bare .pushSelf))).followedBy nextRealizes
  have hoisted : (superPlan surroundings).followedBy nextPlan =
      if surroundings.owner.isNone then throw .superOutsideMethod
      else (Plan.one (.bare (.bare .pushSelf))).followedBy nextPlan := by
    unfold superPlan
    split <;> rfl
  rw [hoisted]
  exact pushed.check

theorem realizes_block {lower : Lower Unit} {plan : Plan} (realizes : Realizes lower plan)
    {count : Nat} :
    Realizes
      (do
        let (_, unit) ← lower.run CodeUnit.empty
        let index ← addConstant (.block unit)
        emitPacked .makeClosure index count)
      (do
        let unit ← plan.toUnit
        Plan.one (.pooled .makeClosure (.block unit) (some count))) := by
  intro unit grown
  constructor
  · intro lowered
    obtain ⟨⟨⟨⟩, body⟩, between, answered, lowered⟩ := Lower.bind_eq_ok.mp lowered
    obtain ⟨bodyLowered, rfl⟩ := Lower.lift_eq_ok.mp answered
    obtain ⟨ops, planned, assembled⟩ :=
      (realizes_one (.pooled .makeClosure (.block body) (some count)) _ _).mp lowered
    exact ⟨ops, Except.bind_eq_ok.mpr ⟨body, realizes.toUnit.mpr bodyLowered, planned⟩, assembled⟩
  · rintro ⟨ops, planned, assembled⟩
    obtain ⟨body, bodyPlanned, planned⟩ := Except.bind_eq_ok.mp planned
    have bodyLowered := realizes.toUnit.mp bodyPlanned
    exact Lower.bind_eq_ok.mpr ⟨((), body), unit, Lower.lift_eq_ok.mpr ⟨bodyLowered, rfl⟩,
      (realizes_one (.pooled .makeClosure (.block body) (some count)) _ _).mpr
        ⟨ops, planned, assembled⟩⟩

mutual

theorem realizes_expr (surroundings : Surroundings) : (expr : Expr) →
    Realizes (lowerExpr surroundings expr) (expr.plan surroundings)
  | .literal value => by
      rw [lowerExpr, Expr.plan]
      exact realizes_literal value
  | .var name => by
      rw [lowerExpr, Expr.plan]
      exact realizes_name surroundings name
  | .self => by
      rw [lowerExpr, Expr.plan]
      exact realizes_one (.bare _)
  | .super => by
      rw [lowerExpr, Expr.plan]
      exact realizes_throw _ _
  | .assign target value => by
      rw [lowerExpr, Expr.plan]
      exact ((realizes_expr surroundings value).followedBy
        (realizes_access surroundings .store target)).check
  | .send receiver selector arguments => by
      rw [lowerExpr, Expr.plan]
      have rest := fun opcode => (realizes_exprs surroundings arguments).followedBy
        (realizes_one (.pooled opcode (.string selector) (some arguments.length)))
      refine realizes_ask fun _ => ?_
      by_cases isSuper : receiver.isSuper
      · simp only [isSuper, if_true]
        exact realizes_super surroundings (rest .superSend)
      · simp only [isSuper]
        exact (realizes_expr surroundings receiver).followedBy (rest .send)
  | .cascade receiver messages => by
      rw [lowerExpr, Expr.plan]
      exact ((realizes_expr surroundings receiver).followedBy
        (realizes_messages surroundings messages)).check.check
  | .block parameters body => by
      rw [lowerExpr, Expr.plan]
      refine Realizes.check (realizes_block ?_)
      exact realizes_statements (surroundings.inBlock parameters) true body
  | .array elements => by
      rw [lowerExpr, Expr.plan]
      exact (realizes_exprs surroundings elements).followedBy (realizes_one (.bare _))
  | .dictionary entries => by
      rw [lowerExpr, Expr.plan]
      exact (realizes_entries surroundings entries).followedBy (realizes_one (.bare _))

theorem realizes_exprs (surroundings : Surroundings) : (exprs : List Expr) →
    Realizes (lowerExprs surroundings exprs) (planAll surroundings exprs)
  | [] => by
      rw [lowerExprs, planAll]
      exact realizes_nothing
  | expr :: rest => by
      rw [lowerExprs, planAll]
      exact (realizes_expr surroundings expr).followedBy (realizes_exprs surroundings rest)

theorem realizes_messages (surroundings : Surroundings) : (messages : List Message) →
    Realizes (lowerMessages surroundings messages) (planMessages surroundings messages)
  | [] => by
      rw [lowerMessages, planMessages]
      exact realizes_nothing
  | ⟨selector, arguments⟩ :: rest => by
      rw [lowerMessages, planMessages]
      refine realizes_ask fun _ => ?_
      have sent :=
        (realizes_one (.pooled .send (.string selector) (some arguments.length))).followedBy
          ((realizes_one (.bare (.bare .pop))).followedBy (realizes_messages surroundings rest))
      simp only [Op.add, bind_assoc] at sent
      exact (realizes_one (.bare (.bare .dup))).followedBy
        ((realizes_exprs surroundings arguments).followedBy sent)

theorem realizes_entries (surroundings : Surroundings) : (entries : List Entry) →
    Realizes (lowerEntries surroundings entries) (planEntries surroundings entries)
  | [] => by
      rw [lowerEntries, planEntries]
      exact realizes_nothing
  | ⟨key, value⟩ :: rest => by
      rw [lowerEntries, planEntries]
      exact (realizes_expr surroundings key).followedBy <|
        (realizes_expr surroundings value).followedBy (realizes_entries surroundings rest)

theorem realizes_statements (surroundings : Surroundings) (leading : Bool) :
    (statements : List Stmt) →
    Realizes (lowerStatements surroundings leading statements)
      (planStatements surroundings leading statements)
  | [] => by
      rw [lowerStatements, planStatements]
      cases leading with
      | true =>
          exact realizes_emptyBody surroundings.kind
      | false =>
          exact realizes_nothing
  | .declare names :: rest => by
      rw [lowerStatements, planStatements]
      cases leading with
      | true =>
          exact realizes_ask fun extended => realizes_statements extended true rest
      | false =>
          exact realizes_throw _ _
  | .define definition :: rest => by
      rw [lowerStatements, planStatements]
      exact realizes_throw _ _
  | .expr value :: rest => by
      rw [lowerStatements, planStatements]
      exact (realizes_expr surroundings value).followedBy <|
        (realizes_one (.bare _)).followedBy (realizes_statements surroundings false rest)
  | .return value :: rest => by
      rw [lowerStatements, planStatements]
      exact (realizes_expr surroundings value).followedBy <|
        (realizes_one (.bare _)).followedBy (realizes_statements surroundings false rest)

end

/-! ## What is assembled -/

/-- What is in the second unit beyond the first one is what the operations say. -/
structure Assembled (ops : List Op) (unit grown : CodeUnit) : Prop where
  poolFits : grown.PoolFits
  constants : unit.constants <+: grown.constants
  /-- Every constant that was not there before belongs to an operation. -/
  origin : ∀ constant ∈ grown.constants,
    constant ∈ unit.constants ∨ constant ∈ ops.flatMap Op.constants
  code : ∃ added, grown.code.toList = unit.code.toList ++ added ∧
    ∀ pool, grown.constants <+: pool → List.Forall₂ (Op.Denotes pool) ops added

theorem assembled_one {op : Op} {unit grown : CodeUnit} (poolFits : unit.PoolFits)
    (added : op.add unit = .ok ((), grown)) : Assembled [op] unit grown := by
  cases op with
  | bare instruction =>
      cases added
      refine ⟨poolFits, List.prefix_refl _, fun constant member => Or.inl member, ?_⟩
      exact ⟨[instruction], by simp, fun pool _ => .cons .bare .nil⟩
  | pooled opcode constant count =>
      obtain ⟨_, index, between, constantAdded, rfl⟩ := (Op.add_pooled_eq_ok poolFits).mp added
      obtain ⟨small, found, fits, sameCode, pools⟩ := addConstant_ok poolFits constantAdded
      refine ⟨fits, ?_, ?_, [Op.placed opcode index count], ?_, ?_⟩
      · rcases pools with same | longer
        · exact same ▸ List.prefix_refl _
        · exact longer ▸ List.prefix_append _ _
      · intro other member
        have inPool : other ∈ between.constants := member
        rcases pools with same | longer
        · rw [same] at inPool
          exact Or.inl inPool
        · rw [longer] at inPool
          simpa [Op.constants] using inPool
      · rw [show (between.add (Op.placed opcode index count)).code =
          between.code.push (Op.placed opcode index count) from rfl, Array.toList_push, sameCode]
      · intro pool isLonger
        exact .cons (.pooled small (found_in_longer found isLonger)) .nil

theorem Assembled.append {first next : List Op} {unit between grown : CodeUnit}
    (firstAssembled : Assembled first unit between)
    (nextAssembled : Assembled next between grown) : Assembled (first ++ next) unit grown := by
  obtain ⟨firstCode, firstAdded, firstDenotes⟩ := firstAssembled.code
  obtain ⟨nextCode, nextAdded, nextDenotes⟩ := nextAssembled.code
  refine ⟨nextAssembled.poolFits, firstAssembled.constants.trans nextAssembled.constants, ?_,
    firstCode ++ nextCode, ?_, ?_⟩
  · intro constant member
    rw [List.flatMap_append, List.mem_append]
    rcases nextAssembled.origin constant member with inBetween | ofNext
    · rcases firstAssembled.origin constant inBetween with inUnit | ofFirst
      · exact Or.inl inUnit
      · exact Or.inr (Or.inl ofFirst)
    · exact Or.inr (Or.inr ofNext)
  · rw [nextAdded, firstAdded, List.append_assoc]
  · intro pool isLonger
    exact List.rel_append (firstDenotes pool (nextAssembled.constants.trans isLonger))
      (nextDenotes pool isLonger)

theorem assembled_of_assemble {ops : List Op} {unit grown : CodeUnit} (poolFits : unit.PoolFits)
    (assembled : assemble ops unit = .ok ((), grown)) : Assembled ops unit grown := by
  induction ops generalizing unit with
  | nil =>
      cases assembled
      refine ⟨poolFits, List.prefix_refl _, fun constant member => Or.inl member, [], ?_, ?_⟩
      · simp
      · exact fun _ _ => .nil
  | cons op rest inductionHypothesis =>
      obtain ⟨⟨⟩, between, opAdded, restAssembled⟩ := Lower.bind_eq_ok.mp assembled
      have first := assembled_one poolFits opAdded
      exact first.append (inductionHypothesis first.poolFits restAssembled)

theorem fits_of_add {op : Op} {unit grown : CodeUnit} (poolFits : unit.PoolFits)
    (added : op.add unit = .ok ((), grown)) : op.Fits := by
  cases op with
  | bare instruction =>
      trivial
  | pooled opcode constant count =>
      exact ((Op.add_pooled_eq_ok poolFits).mp added).1

theorem fits_of_assemble {ops : List Op} {unit grown : CodeUnit} (poolFits : unit.PoolFits)
    (assembled : assemble ops unit = .ok ((), grown)) : ∀ op ∈ ops, op.Fits := by
  induction ops generalizing unit with
  | nil =>
      exact List.forall_mem_nil _
  | cons op rest inductionHypothesis =>
      obtain ⟨⟨⟩, between, opAdded, restAssembled⟩ := Lower.bind_eq_ok.mp assembled
      exact List.forall_mem_cons.mpr ⟨fits_of_add poolFits opAdded,
        inductionHypothesis (assembled_one poolFits opAdded).poolFits restAssembled⟩

/-! ## Smaller pools -/

/-- A constant that is shared in one pool and not found in another one is missing there. -/
theorem notMem_of_findIdx? {constant : Constant} {constants more : List Constant} {index : Nat}
    (shared : more.findIdx? constant.sameLiteral = some index)
    (missing : constants.findIdx? constant.sameLiteral = none) :
    constant ∈ more ∧ constant ∉ constants := by
  obtain ⟨inside, same, _⟩ := List.findIdx?_eq_some_iff_getElem.mp shared
  have isConstant : constant = more[index] := eq_of_sameLiteral same
  have selfSame : constant.sameLiteral constant = true := by
    rw [← isConstant] at same
    exact same
  constructor
  · rw [isConstant]
    exact List.getElem_mem inside
  · intro member
    have different := List.findIdx?_eq_none_iff.mp missing constant member
    simp [selfSame] at different

/-- A constant for which there is room is also added where the pool has only a part of the
constants. -/
theorem addConstant_of_subperm {constant : Constant} {unit grown smaller : CodeUnit} {index : Nat}
    (poolFits : unit.PoolFits) (part : smaller.constants.Subperm unit.constants)
    (added : addConstant constant unit = .ok (index, grown)) :
    ∃ place less, addConstant constant smaller = .ok (place, less) ∧
      less.constants.Subperm grown.constants := by
  have fewer : smaller.constants.length ≤ unit.constants.length := part.length_le
  obtain ⟨_, _, _, _, pools⟩ := addConstant_ok poolFits added
  cases foundInSmaller : smaller.constants.findIdx? constant.sameLiteral with
  | some place =>
      refine ⟨place, smaller, addConstant_eq_ok.mpr (.inl ⟨foundInSmaller, rfl⟩), ?_⟩
      rcases pools with same | longer
      · exact same ▸ part
      · exact longer ▸ part.trans (List.sublist_append_left _ _).subperm
  | none =>
      rcases addConstant_eq_ok.mp added with ⟨found, rfl⟩ | ⟨_, enough, rfl, rfl⟩
      · obtain ⟨member, notMember⟩ := notMem_of_findIdx? found foundInSmaller
        have withConstant : (constant :: smaller.constants).Subperm grown.constants :=
          List.cons_subperm_of_not_mem_of_mem notMember member part
        have room : smaller.constants.length ≤ Instruction.maxPackedIndex := by
          have bound := withConstant.length_le
          unfold CodeUnit.PoolFits at poolFits
          simp only [List.length_cons] at bound
          omega
        refine ⟨_, _, addConstant_eq_ok.mpr (.inr ⟨foundInSmaller, room, rfl, rfl⟩), ?_⟩
        exact (List.perm_append_singleton constant smaller.constants).subperm_right.mpr
          withConstant
      · have room : smaller.constants.length ≤ Instruction.maxPackedIndex :=
          Nat.le_trans fewer enough
        exact ⟨_, _, addConstant_eq_ok.mpr (.inr ⟨foundInSmaller, room, rfl, rfl⟩),
          (List.subperm_append_right [constant]).mpr part⟩

/-- What can be assembled into a unit can be assembled into a unit with a part of its constants. -/
theorem assemble_of_subperm {ops : List Op} {unit grown smaller : CodeUnit}
    (poolFits : unit.PoolFits) (part : smaller.constants.Subperm unit.constants)
    (assembled : assemble ops unit = .ok ((), grown)) :
    ∃ less, assemble ops smaller = .ok ((), less) := by
  induction ops generalizing unit smaller with
  | nil =>
      exact ⟨smaller, rfl⟩
  | cons op rest inductionHypothesis =>
      obtain ⟨⟨⟩, between, opAdded, restAssembled⟩ := Lower.bind_eq_ok.mp assembled
      have betweenFits := (assembled_one poolFits opAdded).poolFits
      have first : ∃ less, op.add smaller = .ok ((), less) ∧
          less.constants.Subperm between.constants := by
        cases op with
        | bare instruction =>
            cases opAdded
            exact ⟨_, rfl, part⟩
        | pooled opcode constant count =>
            obtain ⟨few, index, middle, constantAdded, rfl⟩ :=
              (Op.add_pooled_eq_ok poolFits).mp opAdded
            obtain ⟨place, less, lessAdded, lessPart⟩ :=
              addConstant_of_subperm poolFits part constantAdded
            have smallerFits : smaller.PoolFits := Nat.le_trans part.length_le poolFits
            exact ⟨_, (Op.add_pooled_eq_ok smallerFits).mpr ⟨few, place, less, lessAdded, rfl⟩,
              lessPart⟩
      obtain ⟨less, lessAdded, lessPart⟩ := first
      obtain ⟨last, lastAssembled⟩ := inductionHypothesis betweenFits lessPart restAssembled
      exact ⟨last, Lower.bind_eq_ok.mpr ⟨(), less, lessAdded, lastAssembled⟩⟩

/-! ## Programs -/

/-- The operations for the statements of a program, with the session that it reaches. -/
def planProgram (leading : Bool) (session : Session) :
    Program → Except CompileError (Session × List Op)
  | [] => do
    let ops ← if leading then emptyBodyPlan .topLevel else pure []
    pure (session, ops)
  | .declare names :: rest =>
    if leading then
      match session.declareAll names with
      | (extended, .ok _) => planProgram true extended rest
      | (_, .error error) => throw error
    else throw (.lateDeclaration (declaredName names))
  | .define definition :: rest =>
    match lowerClass session definition with
    | (_, .error error) => throw error
    | (extended, .ok descriptor) => do
      let classOps ← Plan.one (.pooled .defineClass (.classDescriptor descriptor) none)
      let (final, ops) ← planProgram false extended rest
      pure (final, classOps ++ .bare (afterStatement rest.isEmpty) :: ops)
  | .expr value :: rest => do
    let valueOps ← value.plan session.topLevel
    let (final, ops) ← planProgram false session rest
    pure (final, valueOps ++ .bare (afterStatement rest.isEmpty) :: ops)
  | .return value :: rest => do
    let valueOps ← value.plan session.topLevel
    let (final, ops) ← planProgram false session rest
    pure (final, valueOps ++ .bare (.bare .return) :: ops)

/-- A statement of a program has a plan, and so has what follows it. -/
theorem planStatement_eq_ok {plan : Plan} {rest : Except CompileError (Session × List Op)}
    {last : Op} {final : Session} {ops : List Op} :
    (do
      let valueOps ← plan
      let (reached, restOps) ← rest
      pure (reached, valueOps ++ last :: restOps)) = Except.ok (final, ops) ↔
    ∃ valueOps restOps, plan = .ok valueOps ∧ rest = .ok (final, restOps) ∧
      ops = valueOps ++ last :: restOps := by
  constructor
  · intro planned
    obtain ⟨valueOps, valuePlanned, planned⟩ := Except.bind_eq_ok.mp planned
    obtain ⟨⟨_, restOps⟩, restPlanned, wrapped⟩ := Except.bind_eq_ok.mp planned
    cases wrapped
    exact ⟨valueOps, restOps, valuePlanned, restPlanned, rfl⟩
  · rintro ⟨valueOps, restOps, rfl, rfl, rfl⟩
    rfl

section Statements

variable {leading : Bool} {session extended final : Session} {rest : Program} {ops : List Op}

theorem planProgram_declare {names : List String}
    (declared : session.declareAll names = (extended, .ok ())) :
    planProgram true session (.declare names :: rest) = planProgram true extended rest := by
  rw [planProgram, if_pos rfl, declared]

theorem planProgram_declare_ok {names : List String}
    (planned : planProgram leading session (.declare names :: rest) = .ok (final, ops)) :
    leading = true ∧ ∃ extended, session.declareAll names = (extended, .ok ()) ∧
      planProgram true extended rest = .ok (final, ops) := by
  rw [planProgram] at planned
  cases leading with
  | false =>
      cases planned
  | true =>
      rcases declared : session.declareAll names with ⟨extended, error | done⟩
      · rw [declared] at planned
        cases planned
      · rw [declared] at planned
        exact ⟨rfl, extended, rfl, planned⟩

theorem planProgram_define_ok {definition : ClassDef}
    (planned : planProgram leading session (.define definition :: rest) = .ok (final, ops)) :
    ∃ extended descriptor restOps, lowerClass session definition = (extended, .ok descriptor) ∧
      planProgram false extended rest = .ok (final, restOps) ∧
      ops = [.pooled .defineClass (.classDescriptor descriptor) none] ++
        .bare (afterStatement rest.isEmpty) :: restOps := by
  rw [planProgram] at planned
  rcases classLowered : lowerClass session definition with ⟨extended, error | descriptor⟩
  · rw [classLowered] at planned
    cases planned
  · rw [classLowered] at planned
    obtain ⟨classOps, restOps, classPlanned, restPlanned, rfl⟩ := planStatement_eq_ok.mp planned
    cases classPlanned
    exact ⟨extended, descriptor, restOps, rfl, restPlanned, rfl⟩

theorem planProgram_expr_ok {value : Expr}
    (planned : planProgram leading session (.expr value :: rest) = .ok (final, ops)) :
    ∃ valueOps restOps, value.plan session.topLevel = .ok valueOps ∧
      planProgram false session rest = .ok (final, restOps) ∧
      ops = valueOps ++ .bare (afterStatement rest.isEmpty) :: restOps := by
  rw [planProgram] at planned
  exact planStatement_eq_ok.mp planned

theorem planProgram_return_ok {value : Expr}
    (planned : planProgram leading session (.return value :: rest) = .ok (final, ops)) :
    ∃ valueOps restOps, value.plan session.topLevel = .ok valueOps ∧
      planProgram false session rest = .ok (final, restOps) ∧
      ops = valueOps ++ .bare (.bare .return) :: restOps := by
  rw [planProgram] at planned
  exact planStatement_eq_ok.mp planned

end Statements

theorem statement_eq_ok {stopped final : Session} {lowered : Except CompileError (Unit × CodeUnit)}
    {next : CodeUnit → Session × Except CompileError CodeUnit} {grown : CodeUnit} :
    (match lowered with
      | .ok (_, between) => next between
      | .error error => (stopped, .error error)) = (final, .ok grown) ↔
    ∃ between, lowered = .ok ((), between) ∧ next between = (final, .ok grown) := by
  cases lowered with
  | error error =>
      simp
  | ok reached =>
      obtain ⟨⟨⟩, between⟩ := reached
      simp

theorem refused_eq_ok {stopped final : Session} {error other : CompileError}
    {unit grown : CodeUnit} :
    (stopped, Except.error error) = (final, Except.ok grown) ↔
      ∃ ops, (throw other : Except CompileError (Session × List Op)) = .ok (final, ops) ∧
        assemble ops unit = .ok ((), grown) := by
  constructor
  · intro impossible
    cases impossible
  · rintro ⟨ops, impossible, _⟩
    cases impossible

/-- A statement that has a plan and is followed by a program that has one. -/
theorem lowerProgramFrom_statement {stopped session final : Session} {lower : Lower Unit}
    {plan : Plan} {unit grown : CodeUnit} {rest : Program} (realizes : Realizes lower plan)
    (inductionHypothesis : ∀ {unit}, lowerProgramFrom false session unit rest = (final, .ok grown) ↔
      ∃ ops, planProgram false session rest = .ok (final, ops) ∧
        assemble ops unit = .ok ((), grown)) :
    (match lower unit with
      | .ok (_, between) => lowerProgramFrom false session between rest
      | .error error => (stopped, .error error)) = (final, .ok grown) ↔
    ∃ first ops, plan = .ok first ∧ planProgram false session rest = .ok (final, ops) ∧
      assemble (first ++ ops) unit = .ok ((), grown) := by
  rw [statement_eq_ok]
  constructor
  · rintro ⟨between, lowered, restLowered⟩
    obtain ⟨first, planned, assembled⟩ := (realizes _ _).mp lowered
    obtain ⟨ops, restPlanned, restAssembled⟩ := inductionHypothesis.mp restLowered
    exact ⟨first, ops, planned, restPlanned,
      assemble_append.mpr ⟨between, assembled, restAssembled⟩⟩
  · rintro ⟨first, ops, planned, restPlanned, assembled⟩
    obtain ⟨between, firstAssembled, restAssembled⟩ := assemble_append.mp assembled
    exact ⟨between, (realizes _ _).mpr ⟨first, planned, firstAssembled⟩,
      inductionHypothesis.mpr ⟨ops, restPlanned, restAssembled⟩⟩

theorem planned_statement {session final : Session} {plan : Plan} {unit grown : CodeUnit}
    {rest : Program} (last : Op) :
    (∃ first ops, plan.followedBy (Plan.one last) = .ok first ∧
      planProgram false session rest = .ok (final, ops) ∧
      assemble (first ++ ops) unit = .ok ((), grown)) ↔
    ∃ all, (do
        let valueOps ← plan
        let (reached, ops) ← planProgram false session rest
        pure (reached, valueOps ++ last :: ops)) = Except.ok (final, all) ∧
      assemble all unit = .ok ((), grown) := by
  constructor
  · rintro ⟨first, ops, planned, restPlanned, assembled⟩
    obtain ⟨valueOps, _, valuePlanned, lastPlanned, rfl⟩ := Plan.followedBy_eq_ok.mp planned
    cases lastPlanned
    rw [List.append_assoc] at assembled
    exact ⟨_, planStatement_eq_ok.mpr ⟨valueOps, ops, valuePlanned, restPlanned, rfl⟩, assembled⟩
  · rintro ⟨all, planned, assembled⟩
    obtain ⟨valueOps, ops, valuePlanned, restPlanned, rfl⟩ := planStatement_eq_ok.mp planned
    refine ⟨valueOps ++ [last], ops, ?_, restPlanned, ?_⟩
    · exact Plan.followedBy_eq_ok.mpr ⟨valueOps, [last], valuePlanned, rfl, rfl⟩
    · simpa using assembled

/-- A program is lowered exactly if it has a plan that can be assembled. -/
theorem lowerProgramFrom_eq_ok {leading : Bool} {session final : Session} {unit grown : CodeUnit}
    {program : Program} :
    lowerProgramFrom leading session unit program = (final, .ok grown) ↔
      ∃ ops, planProgram leading session program = .ok (final, ops) ∧
        assemble ops unit = .ok ((), grown) := by
  induction program generalizing leading session unit with
  | nil =>
      cases leading with
      | false =>
          constructor
          · intro lowered
            cases lowered
            exact ⟨[], rfl, rfl⟩
          · rintro ⟨ops, planned, assembled⟩
            cases planned
            cases assembled
            rfl
      | true =>
          constructor
          · intro lowered
            cases lowered
            exact ⟨_, rfl, rfl⟩
          · rintro ⟨ops, planned, assembled⟩
            cases planned
            cases assembled
            rfl
  | cons statement rest inductionHypothesis =>
      cases statement with
      | declare names =>
          rw [lowerProgramFrom, planProgram]
          cases leading with
          | false =>
              exact refused_eq_ok
          | true =>
              rcases declared : session.declareAll names with ⟨extended, error | done⟩
              · exact refused_eq_ok
              · exact inductionHypothesis
      | define definition =>
          rw [lowerProgramFrom, planProgram]
          rcases classLowered : lowerClass session definition with ⟨extended, error | descriptor⟩
          · exact refused_eq_ok
          · have realizes : Realizes
                (do emitClass descriptor; emitAfterStatement rest.isEmpty) _ :=
              (realizes_one (.pooled .defineClass (.classDescriptor descriptor) none)).followedBy
                (realizes_one (.bare (afterStatement rest.isEmpty)))
            exact (lowerProgramFrom_statement realizes inductionHypothesis).trans
              (planned_statement _)
      | expr value =>
          rw [lowerProgramFrom, planProgram]
          have realizes : Realizes
              (do lowerExpr session.topLevel value; emitAfterStatement rest.isEmpty) _ :=
            (realizes_expr session.topLevel value).followedBy
              (realizes_one (.bare (afterStatement rest.isEmpty)))
          exact (lowerProgramFrom_statement realizes inductionHypothesis).trans
            (planned_statement _)
      | «return» value =>
          rw [lowerProgramFrom, planProgram]
          have realizes : Realizes
              (do lowerExpr session.topLevel value; emit (.bare .return)) _ :=
            (realizes_expr session.topLevel value).followedBy (realizes_one (.bare (.bare .return)))
          exact (lowerProgramFrom_statement realizes inductionHypothesis).trans
            (planned_statement _)

end Missive
