import Missive.Proofs.Code.RoundTrip
import Missive.Proofs.Compile.Plan
import Missive.Proofs.Compile.Verification

/-!
# How deeply compiled code nests

The blocks, the methods and the classes of a program lie in each other as deeply as the units and
the class descriptors of its code.  Nothing is lost, since blocks and classes are never shared in a
pool, and nothing is added.  So whether the code of a program can be saved in a file and loaded
again is seen in the program: its depth has to be one that a file may have.
-/

namespace Missive

/-! ## The depth of a program -/

mutual

/-- How many blocks lie in each other in the expression. -/
def Expr.nesting : Expr → Nat
  | .literal _ | .var _ | .self | .super => 0
  | .assign _ value => value.nesting
  | .send receiver _ arguments => max receiver.nesting (nestingInAll arguments)
  | .cascade receiver messages => max receiver.nesting (nestingInMessages messages)
  | .block _ body => nestingInBody body + 1
  | .array elements => nestingInAll elements
  | .dictionary entries => nestingInEntries entries

def nestingInAll : List Expr → Nat
  | [] => 0
  | expr :: rest => max expr.nesting (nestingInAll rest)

def nestingInMessages : List Message → Nat
  | [] => 0
  | ⟨_, arguments⟩ :: rest => max (nestingInAll arguments) (nestingInMessages rest)

def nestingInEntries : List Entry → Nat
  | [] => 0
  | ⟨key, value⟩ :: rest => max key.nesting (max value.nesting (nestingInEntries rest))

/-- A class is one level and each of its methods another one. -/
def nestingInBody : List Stmt → Nat
  | [] => 0
  | .expr value :: rest | .return value :: rest => max value.nesting (nestingInBody rest)
  | .declare _ :: rest => nestingInBody rest
  | .define ⟨_, _, _, _, methods, classMethods⟩ :: rest =>
    max (max (nestingInMethods methods) (nestingInMethods classMethods) + 1) (nestingInBody rest)

def nestingInMethods : List MethodDef → Nat
  | [] => 0
  | ⟨_, _, body⟩ :: rest => max (nestingInBody body + 1) (nestingInMethods rest)

end

/-- The depth to which blocks, methods and classes lie in each other in the program. -/
def Program.nesting (program : Program) : Nat := nestingInBody program

/-! ## The depth of a plan -/

/-- The depth of what the operations put into a pool. -/
def nestingOfOps (ops : List Op) : Nat := poolNesting (ops.flatMap Op.constants)

theorem poolNesting_append (first next : List Constant) :
    poolNesting (first ++ next) = max (poolNesting first) (poolNesting next) := by
  induction first with
  | nil =>
      simp [poolNesting]
  | cons head rest inductionHypothesis =>
      simp [poolNesting, inductionHypothesis, Nat.max_assoc]

theorem nestingOfOps_append (first next : List Op) :
    nestingOfOps (first ++ next) = max (nestingOfOps first) (nestingOfOps next) := by
  simp [nestingOfOps, poolNesting_append]

/-- The operations find their constants in the pool. -/
theorem constants_subset_of_denotes {pool : List Constant} {ops : List Op}
    {code : List Instruction} (denotes : List.Forall₂ (Op.Denotes pool) ops code) :
    ops.flatMap Op.constants ⊆ pool := by
  induction denotes with
  | nil =>
      simp
  | cons opDenotes _ inductionHypothesis =>
      rw [List.flatMap_cons, List.append_subset]
      refine ⟨?_, inductionHypothesis⟩
      cases opDenotes with
      | bare =>
          simp [Op.constants]
      | pooled small found =>
          simpa [Op.constants] using List.mem_of_getElem? found

/-- Assembling adds to a unit the depth of the operations and no other. -/
theorem Assembled.nesting {ops : List Op} {unit grown : CodeUnit}
    (assembled : Assembled ops unit grown) :
    grown.nesting = max unit.nesting (nestingOfOps ops) := by
  obtain ⟨code, constants⟩ := unit
  obtain ⟨grownCode, grownConstants⟩ := grown
  simp only [CodeUnit.nesting, nestingOfOps]
  obtain ⟨added, _, denotes⟩ := assembled.code
  have inPool := constants_subset_of_denotes (denotes grownConstants (List.prefix_refl _))
  have bounded : ∀ {pool : List Constant} {constant : Constant}, constant ∈ pool →
      constant.nesting ≤ poolNesting pool :=
    fun member => poolNesting_le_iff.mp (Nat.le_refl _) _ member
  apply Nat.le_antisymm
  · rw [poolNesting_le_iff]
    intro constant member
    rcases assembled.origin constant member with inUnit | ofOps
    · exact Nat.le_trans (bounded inUnit) (Nat.le_max_left _ _)
    · exact Nat.le_trans (bounded ofOps) (Nat.le_max_right _ _)
  · rw [Nat.max_le, poolNesting_le_iff, poolNesting_le_iff]
    constructor
    · intro constant member
      exact bounded (assembled.constants.subset member)
    · intro constant member
      exact bounded (inPool member)

theorem nesting_empty : CodeUnit.empty.nesting = 0 := by
  simp [CodeUnit.empty, CodeUnit.nesting, poolNesting]

/-- Every plan for the piece of a program has the depth. -/
def Plan.Nests (plan : Plan) (depth : Nat) : Prop :=
  ∀ ops, plan = .ok ops → nestingOfOps ops = depth

namespace Plan.Nests

variable {plan next : Plan} {depth nextDepth : Nat}

theorem nothing : Plan.Nests (pure []) 0 := by
  intro ops planned
  cases planned
  simp [nestingOfOps, poolNesting]

theorem bare (instruction : Instruction) : (Plan.one (.bare instruction)).Nests 0 := by
  intro ops planned
  cases planned
  simp [nestingOfOps, Op.constants, poolNesting]

theorem pooled (opcode : Opcode) (constant : Constant) (count : Option Nat) :
    (Plan.one (.pooled opcode constant count)).Nests constant.nesting := by
  intro ops planned
  cases planned
  simp [nestingOfOps, Op.constants, poolNesting]

theorem scalar (opcode : Opcode) {constant : Constant} (flat : constant.nesting = 0)
    (count : Option Nat) : (Plan.one (.pooled opcode constant count)).Nests 0 := by
  rw [← flat]
  exact pooled opcode constant count

theorem followedBy (nests : plan.Nests depth) (nextNests : next.Nests nextDepth) :
    (plan.followedBy next).Nests (max depth nextDepth) := by
  intro ops planned
  obtain ⟨first, rest, firstPlanned, restPlanned, rfl⟩ := Plan.followedBy_eq_ok.mp planned
  rw [nestingOfOps_append, nests first firstPlanned, nextNests rest restPlanned]

theorem check {condition : Prop} [Decidable condition] {error : CompileError}
    (nests : plan.Nests depth) : Plan.Nests (if condition then throw error else plan) depth := by
  intro ops planned
  exact nests ops (Plan.check_eq_ok.mp planned).2

theorem refused (error : CompileError) : Plan.Nests (throw error) depth := by
  intro ops impossible
  cases impossible

theorem ask {α : Type} {question : Except CompileError α} {plan : α → Plan}
    (nests : ∀ answer, question = .ok answer → (plan answer).Nests depth) :
    Plan.Nests (question >>= plan) depth := by
  intro ops planned
  obtain ⟨answer, answered, planned⟩ := Except.bind_eq_ok.mp planned
  exact nests answer answered ops planned

theorem toUnit {unit : CodeUnit} (nests : plan.Nests depth) (planned : plan.toUnit = .ok unit) :
    unit.nesting = depth := by
  obtain ⟨ops, opsPlanned, planned⟩ := Except.bind_eq_ok.mp planned
  obtain ⟨⟨⟨⟩, reached⟩, assembled, wrapped⟩ := Except.bind_eq_ok.mp planned
  cases wrapped
  rw [(assembled_of_assemble CodeUnit.poolFits_empty assembled).nesting, nests ops opsPlanned,
    nesting_empty, Nat.zero_max]

end Plan.Nests

open Plan (Nests)

theorem nests_literal (value : Literal) : (Plan.one value.op).Nests 0 := by
  cases value with
  | bool value =>
      cases value with
      | true | false =>
          exact .bare _
  | nil =>
      exact .bare _
  | int _ | float _ | string _ | symbol _ =>
      exact .scalar _ (by simp [Constant.nesting]) none

theorem nests_access (surroundings : Surroundings) (access : Access) (name : String) :
    (access.plan surroundings name).Nests 0 := by
  refine Nests.ask fun location _ => ?_
  cases location with
  | slot _ | outer _ _ | field _ =>
      exact .bare _
  | classVar | global =>
      exact .scalar _ (by simp [Constant.nesting]) none

theorem nests_name (surroundings : Surroundings) (name : String) :
    (namePlan surroundings name).Nests 0 := by
  unfold namePlan
  split
  · exact .bare _
  refine Nests.check ?_
  split
  · exact .bare _
  split
  · exact .bare _
  split
  · exact .bare _
  exact nests_access surroundings .load name

theorem nesting_of_isSuper {receiver : Expr} (isSuper : receiver.isSuper = true) :
    receiver.nesting = 0 := by
  cases receiver with
  | super | var _ =>
      rw [Expr.nesting]
  | literal _ | self | assign _ _ | send _ _ _ | cascade _ _ | block _ _ | array _ | dictionary _ =>
      cases isSuper

theorem nests_send {surroundings : Surroundings} {receiver : Expr} {opcode : Opcode}
    {selector : Selector} {plan : Plan} {depth given : Nat}
    (receiverNests : (receiver.plan surroundings).Nests receiver.nesting)
    (nests : plan.Nests depth) :
    (Plan.followedBy
      (if receiver.isSuper then superPlan surroundings else receiver.plan surroundings)
      (plan.followedBy (Plan.one (.pooled opcode (.string selector) (some given))))).Nests
      (max receiver.nesting depth) := by
  have sent : (Plan.one (.pooled opcode (.string selector) (some given))).Nests 0 :=
    .scalar opcode (by simp [Constant.nesting]) (some given)
  have pushed : Plan.Nests
      (if receiver.isSuper then superPlan surroundings else receiver.plan surroundings)
      receiver.nesting := by
    split
    · rename_i isSuper
      rw [nesting_of_isSuper isSuper]
      exact Nests.check (.bare _)
    · exact receiverNests
  simpa using pushed.followedBy (nests.followedBy sent)

mutual

theorem nests_expr (surroundings : Surroundings) : (expr : Expr) →
    (expr.plan surroundings).Nests expr.nesting
  | .literal value => by
      rw [Expr.plan, Expr.nesting]
      exact nests_literal value
  | .var name => by
      rw [Expr.plan, Expr.nesting]
      exact nests_name surroundings name
  | .self => by
      rw [Expr.plan, Expr.nesting]
      exact .bare _
  | .super => by
      rw [Expr.plan, Expr.nesting]
      exact .refused _
  | .assign target value => by
      rw [Expr.plan, Expr.nesting]
      have both := (nests_expr surroundings value).followedBy
        (nests_access surroundings .store target)
      rw [Nat.max_zero] at both
      exact both.check
  | .send receiver selector arguments => by
      rw [Expr.plan, Expr.nesting]
      refine Nests.ask fun _ _ => ?_
      exact nests_send (nests_expr surroundings receiver) (nests_exprs surroundings arguments)
  | .cascade receiver messages => by
      rw [Expr.plan, Expr.nesting]
      exact ((nests_expr surroundings receiver).followedBy
        (nests_messages surroundings messages)).check.check
  | .block parameters body => by
      rw [Expr.plan, Expr.nesting]
      refine Nests.check (Nests.ask fun unit planned => ?_)
      have depth := (nests_statements (surroundings.inBlock parameters) true body).toUnit planned
      rw [← depth, ← Constant.nesting]
      exact .pooled _ _ _
  | .array elements => by
      rw [Expr.plan, Expr.nesting]
      simpa using (nests_exprs surroundings elements).followedBy (.bare _)
  | .dictionary entries => by
      rw [Expr.plan, Expr.nesting]
      simpa using (nests_entries surroundings entries).followedBy (.bare _)

theorem nests_exprs (surroundings : Surroundings) : (exprs : List Expr) →
    (planAll surroundings exprs).Nests (nestingInAll exprs)
  | [] => by
      rw [planAll, nestingInAll]
      exact .nothing
  | expr :: rest => by
      rw [planAll, nestingInAll]
      exact (nests_expr surroundings expr).followedBy (nests_exprs surroundings rest)

theorem nests_messages (surroundings : Surroundings) : (messages : List Message) →
    (planMessages surroundings messages).Nests (nestingInMessages messages)
  | [] => by
      rw [planMessages, nestingInMessages]
      exact .nothing
  | ⟨selector, arguments⟩ :: rest => by
      rw [planMessages, nestingInMessages]
      refine Nests.ask fun _ _ => ?_
      have sent : (Plan.one (.pooled .send (.string selector) (some arguments.length))).Nests 0 :=
        .scalar .send (by simp [Constant.nesting]) (some arguments.length)
      simpa using (Nests.bare _).followedBy ((nests_exprs surroundings arguments).followedBy
        (sent.followedBy ((Nests.bare _).followedBy (nests_messages surroundings rest))))

theorem nests_entries (surroundings : Surroundings) : (entries : List Entry) →
    (planEntries surroundings entries).Nests (nestingInEntries entries)
  | [] => by
      rw [planEntries, nestingInEntries]
      exact .nothing
  | ⟨key, value⟩ :: rest => by
      rw [planEntries, nestingInEntries]
      exact (nests_expr surroundings key).followedBy
        ((nests_expr surroundings value).followedBy (nests_entries surroundings rest))

theorem nests_statements (surroundings : Surroundings) (leading : Bool) :
    (statements : List Stmt) →
    (planStatements surroundings leading statements).Nests (nestingInBody statements)
  | [] => by
      rw [planStatements, nestingInBody]
      cases leading with
      | true =>
          exact (Nests.bare _).followedBy (Nests.bare _)
      | false =>
          exact .nothing
  | .declare names :: rest => by
      rw [planStatements, nestingInBody]
      cases leading with
      | true =>
          exact Nests.ask fun extended _ => nests_statements extended true rest
      | false =>
          exact .refused _
  | .define definition :: rest => by
      rw [planStatements]
      exact .refused _
  | .expr value :: rest => by
      rw [planStatements, nestingInBody]
      simpa using (nests_expr surroundings value).followedBy
        ((Nests.bare _).followedBy (nests_statements surroundings false rest))
  | .return value :: rest => by
      rw [planStatements, nestingInBody]
      simpa using (nests_expr surroundings value).followedBy
        ((Nests.bare _).followedBy (nests_statements surroundings false rest))

end

/-! ## Classes and programs -/

theorem nesting_lowerMethod {session : Session} {owner : Owner} {definition : MethodDef}
    {method : MethodDescriptor} (lowered : lowerMethod session owner definition = .ok method) :
    method.body.nesting = nestingInBody definition.body := by
  obtain ⟨body, _, bodyLowered, rfl⟩ := lowerMethod_eq_ok.mp lowered
  have planned := (realizes_statements _ true definition.body).toUnit.mpr bodyLowered
  exact (nests_statements _ true definition.body).toUnit planned

theorem methodsNesting_lowerMethods {session : Session} {owner : Owner}
    {definitions : List MethodDef} {methods : List MethodDescriptor}
    (lowered : definitions.mapM (lowerMethod session owner) = .ok methods) :
    methodsNesting methods = nestingInMethods definitions := by
  induction definitions generalizing methods with
  | nil =>
      rw [List.mapM_nil] at lowered
      cases lowered
      rw [methodsNesting, nestingInMethods]
  | cons definition rest inductionHypothesis =>
      rw [List.mapM_cons] at lowered
      obtain ⟨method, methodLowered, lowered⟩ := Except.bind_eq_ok.mp lowered
      obtain ⟨others, othersLowered, wrapped⟩ := Except.bind_eq_ok.mp lowered
      cases wrapped
      have depth := nesting_lowerMethod methodLowered
      obtain ⟨selector, parameters, body⟩ := method
      obtain ⟨_, _, statements⟩ := definition
      simp only [methodsNesting, nestingInMethods, inductionHypothesis othersLowered, depth]

theorem nesting_lowerClass {session extended : Session} {definition : ClassDef}
    {descriptor : ClassDescriptor}
    (lowered : lowerClass session definition = (extended, .ok descriptor)) :
    (Constant.classDescriptor descriptor).nesting =
      max (nestingInMethods definition.methods) (nestingInMethods definition.classMethods) + 1 := by
  obtain ⟨_, _, _, methodsLowered⟩ := lowerClass_eq_ok.mp lowered
  obtain ⟨_, _, ofMethods, ofClassMethods, rfl⟩ := lowerMethods_eq_ok.mp methodsLowered
  rw [Constant.nesting, methodsNesting_lowerMethods ofMethods,
    methodsNesting_lowerMethods ofClassMethods]

theorem nesting_statement (valueOps restOps : List Op) (last : Instruction) :
    nestingOfOps (valueOps ++ .bare last :: restOps) =
      max (nestingOfOps valueOps) (nestingOfOps restOps) := by
  rw [nestingOfOps_append]
  simp [nestingOfOps, Op.constants]

theorem nesting_planProgram {leading : Bool} {session final : Session} {program : Program}
    {ops : List Op} (planned : planProgram leading session program = .ok (final, ops)) :
    nestingOfOps ops = program.nesting := by
  unfold Program.nesting
  induction program generalizing leading session ops with
  | nil =>
      rw [nestingInBody]
      cases leading with
      | true | false =>
          cases planned
          simp [nestingOfOps, Op.constants, poolNesting]
  | cons statement rest inductionHypothesis =>
      cases statement with
      | declare names =>
          obtain ⟨_, _, _, restPlanned⟩ := planProgram_declare_ok planned
          rw [nestingInBody]
          exact inductionHypothesis restPlanned
      | define definition =>
          obtain ⟨_, descriptor, restOps, classLowered, restPlanned, rfl⟩ :=
            planProgram_define_ok planned
          obtain ⟨name, parent, fields, classVars, methods, classMethods⟩ := definition
          rw [nesting_statement, Nests.pooled .defineClass _ none _ rfl,
            nesting_lowerClass classLowered, inductionHypothesis restPlanned, nestingInBody]
      | expr value =>
          obtain ⟨valueOps, restOps, valuePlanned, restPlanned, rfl⟩ := planProgram_expr_ok planned
          rw [nesting_statement, nests_expr session.topLevel value valueOps valuePlanned,
            inductionHypothesis restPlanned, nestingInBody]
      | «return» value =>
          obtain ⟨valueOps, restOps, valuePlanned, restPlanned, rfl⟩ :=
            planProgram_return_ok planned
          rw [nesting_statement, nests_expr session.topLevel value valueOps valuePlanned,
            inductionHypothesis restPlanned, nestingInBody]

theorem Program.lower_of_compile {program : Program} {unit : CodeUnit}
    (compiled : program.compile = .ok unit) :
    ∃ final, lowerProgramFrom true .initial .empty program = (final, .ok unit) :=
  ⟨_, Session.compile_eq_ok.mp (Prod.ext rfl compiled)⟩

/-- The code of a program nests as deeply as the program. -/
theorem Program.nesting_compile {program : Program} {unit : CodeUnit}
    (compiled : program.compile = .ok unit) : unit.nesting = program.nesting := by
  obtain ⟨final, lowered⟩ := Program.lower_of_compile compiled
  obtain ⟨ops, planned, assembled⟩ := lowerProgramFrom_eq_ok.mp lowered
  have depth := (assembled_of_assemble CodeUnit.poolFits_empty assembled).nesting
  rw [depth, nesting_empty, nesting_planProgram planned, Nat.zero_max]

/-! ## Saving and loading compiled code -/

/-- What is written for a unit that is too deep is refused for its depth. -/
theorem CodeUnit.decode_of_deep {unit : CodeUnit} {bytes : List UInt8}
    (accepted : unit.encode = .ok bytes) (deep : Format.maxNesting < unit.nesting) :
    ∃ offset, CodeUnit.decode bytes = .error (.nestingTooDeep offset) := by
  obtain ⟨content, written, wrapped⟩ := Except.bind_eq_ok.mp accepted
  cases wrapped
  obtain ⟨offset, refused⟩ := (Decoding.file_of_written written).2 deep
  exact ⟨offset, CodeUnit.decode_of_refused refused⟩

/-- The code of a program, all of whose variables and elements an operand can count, can be saved
and loaded again exactly if the program is no deeper than a file may be.  The file of a deeper
program is refused. -/
theorem Program.decode_encode_compile {program : Program} {unit : CodeUnit} {bytes : List UInt8}
    (scopes : program.scopesFit .initial = true) (collections : program.collectionsFit = true)
    (compiled : program.compile = .ok unit) (accepted : unit.encode = .ok bytes) :
    (CodeUnit.decode bytes = .ok unit ↔ program.nesting ≤ Format.maxNesting) ∧
    (Format.maxNesting < program.nesting →
      ∃ offset, CodeUnit.decode bytes = .error (.nestingTooDeep offset)) := by
  have depth : unit.nesting = program.nesting := Program.nesting_compile compiled
  rw [← depth]
  refine ⟨⟨?_, ?_⟩, CodeUnit.decode_of_deep accepted⟩
  · intro loaded
    by_cases fits : unit.nesting ≤ Format.maxNesting
    · exact fits
    · obtain ⟨offset, refused⟩ := CodeUnit.decode_of_deep accepted (Nat.lt_of_not_le fits)
      rw [refused] at loaded
      cases loaded
  · intro fits
    obtain ⟨scopesBodies, fields⟩ := Bool.and_eq_true_iff.mp scopes
    obtain ⟨final, lowered⟩ := Program.lower_of_compile compiled
    have verified : unit.verify = .ok () :=
      (accepted_program .empty scopesBodies fields collections lowered).verify
    obtain ⟨content, written, wrapped⟩ := Except.bind_eq_ok.mp accepted
    cases wrapped
    obtain ⟨cursor, read⟩ := (Decoding.file_of_written written).1 fits
    exact CodeUnit.decode_of_file read verified

/-- A class whose method answers a block, and a block in a block. -/
def Program.twoBlocks : Program :=
  [.define ⟨"Counter", none, ["count"], [],
      [⟨"add:", ["n"], [.return (.block [] [.expr (.assign "count" (.var "n"))])]⟩], []⟩,
    .expr (.block ["each"] [.expr (.block [] [.return (.var "each")])])]

theorem Program.decode_encode_twoBlocks :
    ∃ unit bytes, Program.twoBlocks.compile = .ok unit ∧ unit.encode = .ok bytes ∧
      Program.twoBlocks.nesting = 3 ∧ CodeUnit.decode bytes = .ok unit := by
  have scopes : Program.twoBlocks.scopesFit .initial = true := by decide
  have collections : Program.twoBlocks.collectionsFit = true := by decide
  have depth : Program.twoBlocks.nesting = 3 := by decide
  refine ⟨_, _, rfl, rfl, depth, ?_⟩
  refine (Program.decode_encode_compile scopes collections rfl rfl).1.mpr ?_
  rw [depth]
  decide

/-- Blocks that lie in each other. -/
def Expr.nestedBlocks : Nat → Expr
  | 0 => .literal (.int 1)
  | depth + 1 => .block [] [.expr (nestedBlocks depth)]

/-- The code of a body that answers blocks in each other. -/
def CodeUnit.nestedBlocks : Nat → CodeUnit
  | 0 => ⟨#[.indexed .pushConstant 0, .bare .return], [.int 1]⟩
  | depth + 1 => ⟨#[.packed .makeClosure 0 0, .bare .return], [.block (nestedBlocks depth)]⟩

theorem plan_nestedBlocks (surroundings : Surroundings) (depth : Nat) :
    ∃ op, (Expr.nestedBlocks depth).plan surroundings = .ok [op] ∧
      assemble [op, .bare (.bare .return)] .empty = .ok ((), CodeUnit.nestedBlocks depth) := by
  induction depth generalizing surroundings with
  | zero =>
      refine ⟨.pooled .pushConstant (.int 1) none, ?_, rfl⟩
      rw [Expr.nestedBlocks, Expr.plan]
      rfl
  | succ depth inductionHypothesis =>
      obtain ⟨op, planned, assembled⟩ := inductionHypothesis (surroundings.inBlock [])
      have body : (planStatements (surroundings.inBlock []) true
          [.expr (Expr.nestedBlocks depth)]).toUnit = .ok (CodeUnit.nestedBlocks depth) := by
        simp only [planStatements, planned]
        change (assemble [op, .bare (.bare .return)] .empty >>= fun reached => pure reached.2) = _
        rw [assembled]
        rfl
      refine ⟨.pooled .makeClosure (.block (CodeUnit.nestedBlocks depth)) (some 0), ?_, rfl⟩
      rw [Expr.nestedBlocks, Expr.plan, body]
      rfl

theorem compile_nestedBlocks (depth : Nat) :
    Program.compile [.expr (Expr.nestedBlocks depth)] = .ok (CodeUnit.nestedBlocks depth) := by
  obtain ⟨op, planned, assembled⟩ := plan_nestedBlocks Session.initial.topLevel depth
  have programPlanned : planProgram true .initial [.expr (Expr.nestedBlocks depth)] =
      .ok (.initial, [op, .bare (.bare .return)]) := by
    rw [planProgram, planned]
    rfl
  have lowered : Session.initial.lower [.expr (Expr.nestedBlocks depth)] =
      (.initial, .ok (CodeUnit.nestedBlocks depth)) :=
    lowerProgramFrom_eq_ok.mpr ⟨_, programPlanned, assembled⟩
  rw [Program.compile, Session.compile, lowered]

theorem encode_nestedBlocks (depth : Nat) :
    ∃ bytes, (CodeUnit.nestedBlocks depth).encode = .ok bytes := by
  have written : ∃ bytes, Encoding.codeUnit (CodeUnit.nestedBlocks depth) = .ok bytes := by
    induction depth with
    | zero =>
        exact ⟨_, rfl⟩
    | succ depth inductionHypothesis =>
        obtain ⟨bytes, written⟩ := inductionHypothesis
        simp only [CodeUnit.nestedBlocks, Encoding.codeUnit, Encoding.pool, Encoding.constant,
          written]
        exact ⟨_, rfl⟩
  obtain ⟨bytes, written⟩ := written
  exact ⟨_, by rw [CodeUnit.encode, written]; rfl⟩

theorem nesting_nestedBlocks (depth : Nat) : (CodeUnit.nestedBlocks depth).nesting = depth := by
  induction depth with
  | zero =>
      simp [CodeUnit.nestedBlocks, CodeUnit.nesting, poolNesting, Constant.nesting]
  | succ depth inductionHypothesis =>
      simp [CodeUnit.nestedBlocks, CodeUnit.nesting, poolNesting, Constant.nesting,
        inductionHypothesis]

/-- Sixty-five blocks in each other compile to code that can be saved and not be loaded again. -/
theorem Program.not_decode_encode_compile :
    ¬ ∀ (program : Program) (unit : CodeUnit) (bytes : List UInt8), program.compile = .ok unit →
      unit.encode = .ok bytes → CodeUnit.decode bytes = .ok unit := by
  intro loads
  obtain ⟨bytes, accepted⟩ := encode_nestedBlocks 65
  have deep : Format.maxNesting < (CodeUnit.nestedBlocks 65).nesting := by
    rw [nesting_nestedBlocks]
    decide
  obtain ⟨offset, refused⟩ := CodeUnit.decode_of_deep accepted deep
  have loaded := loads _ _ bytes (compile_nestedBlocks 65) accepted
  rw [refused] at loaded
  cases loaded

end Missive
