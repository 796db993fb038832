import Missive.Proofs.Code.Occurrences
import Missive.Proofs.Compile.Verdict

/-!
# What a body refers to

The code of a body needs a constant for each literal that is not built in, for the selector of each
message, for the name of each variable that is neither local nor a field, for each block and for
each class.  All these references are listed here by reading the body in the order in which it is
evaluated, without the compiler.

The operations that a body becomes carry the constants of exactly these references, in this order.
So every unit in the code of a program is that of a method or a block, and what its instructions
refer to is known from the text of the program.
-/

namespace Missive

/-! ## References -/

/-- Something for which the code of a body needs a constant. -/
inductive Reference where
  | literal (value : Literal)
  | message (toSuper : Bool) (selector : Selector) (count : Nat)
  | use (access : Access) (location : Location) (name : String)
  | block (surroundings : Surroundings) (parameters : List String) (body : List Stmt)
  | definition (session : Session) (definition : ClassDef)

/-- The constant that stands for a literal.  Truth values and `nil` have instructions instead. -/
def Literal.constant? : Literal → Option Constant
  | .int value => some (.int value)
  | .float value => some (.float value)
  | .string text => some (.string text)
  | .symbol name => some (.string name)
  | .bool _ | .nil => none

def Literal.references (value : Literal) : List Reference :=
  if value.constant?.isSome then [.literal value] else []

/-- A variable is referred to by its name if it is a class variable or a global one. -/
def Surroundings.references (surroundings : Surroundings) (access : Access) (name : String) :
    List Reference :=
  match surroundings.resolve name with
  | .ok .classVar => [.use access .classVar name]
  | .ok .global => [.use access .global name]
  | .ok (.slot _) | .ok (.outer ..) | .ok (.field _) | .error _ => []

mutual

/-- The references of an expression in the order of its evaluation.  What stands in a block is
referred to by the body of the block. -/
def Expr.references (surroundings : Surroundings) : Expr → List Reference
  | .literal value => value.references
  | .var name => if isPseudoVariable name then [] else surroundings.references .load name
  | .self | .super => []
  | .assign target value => value.references surroundings ++ surroundings.references .store target
  | .send receiver selector arguments =>
    receiver.references surroundings ++ (referencesOfAll surroundings arguments ++
      [.message receiver.isSuper selector arguments.length])
  | .cascade receiver messages =>
    receiver.references surroundings ++ referencesOfMessages surroundings messages
  | .block parameters body => [.block surroundings parameters body]
  | .array elements => referencesOfAll surroundings elements
  | .dictionary entries => referencesOfEntries surroundings entries

def referencesOfAll (surroundings : Surroundings) : List Expr → List Reference
  | [] => []
  | expr :: rest => expr.references surroundings ++ referencesOfAll surroundings rest

def referencesOfMessages (surroundings : Surroundings) : List Message → List Reference
  | [] => []
  | ⟨selector, arguments⟩ :: rest =>
    referencesOfAll surroundings arguments ++
      .message false selector arguments.length :: referencesOfMessages surroundings rest

def referencesOfEntries (surroundings : Surroundings) : List Entry → List Reference
  | [] => []
  | ⟨key, value⟩ :: rest =>
    key.references surroundings ++ (value.references surroundings ++
      referencesOfEntries surroundings rest)

end

def Stmt.references (surroundings : Surroundings) : Stmt → List Reference
  | .expr value | .return value => value.references surroundings
  | .declare _ | .define _ => []

/-- The references of the body of a block or of a method. -/
def Surroundings.bodyReferences (surroundings : Surroundings) (statements : List Stmt) :
    List Reference :=
  statements.flatMap (Stmt.references (surroundings.within statements))

/-- The references of a program outside of its blocks and methods. -/
def Program.references (session : Session) : Program → List Reference
  | [] => []
  | .define definition :: rest =>
    .definition session definition :: Program.references (session.past (.define definition)) rest
  | statement :: rest =>
    statement.references session.topLevel ++ Program.references (session.past statement) rest

/-! ## Operations that carry the references -/

/-- The operation stands for the reference and carries its constant. -/
inductive Reference.Stands : Reference → Op → Prop
  | literal {value : Literal} {constant : Constant} : value.constant? = some constant →
      Stands (.literal value) (.pooled .pushConstant constant none)
  | message {toSuper : Bool} {selector : Selector} {count : Nat} {opcode : Opcode} :
      opcode = (if toSuper then .superSend else .send) → count ≤ Instruction.maxPackedCount →
      Stands (.message toSuper selector count) (.pooled opcode (.string selector) (some count))
  | use {access : Access} {location : Location} {name : String} {opcode : Opcode} :
      opcode = access.opcode location → opcode.operandKind = .name →
      Stands (.use access location name) (.pooled opcode (.string name) none)
  | block {surroundings : Surroundings} {parameters : List String} {body : List Stmt}
      {unit : CodeUnit} : parameters.length ≤ Instruction.maxPackedCount →
      lowerStatements (surroundings.inBlock parameters) true body .empty = .ok ((), unit) →
      Stands (.block surroundings parameters body)
        (.pooled .makeClosure (.block unit) (some parameters.length))
  | definition {session extended : Session} {definition : ClassDef}
      {descriptor : ClassDescriptor} :
      lowerClass session definition = (extended, .ok descriptor) →
      Stands (.definition session definition)
        (.pooled .defineClass (.classDescriptor descriptor) none)

/-- The operation carries a constant. -/
def Op.isPooled : Op → Bool
  | .bare _ => false
  | .pooled .. => true

/-- The operations with a constant stand for the references, and no other operation refers to a
constant. -/
structure Carry (references : List Reference) (ops : List Op) : Prop where
  stand : List.Forall₂ Reference.Stands references (ops.filter Op.isPooled)
  plain : ∀ instruction, .bare instruction ∈ ops → instruction.opcode.operandKind.isPlain = true

namespace Carry

theorem nothing : Carry [] [] := ⟨.nil, nofun⟩

theorem bare {instruction : Instruction}
    (plain : instruction.opcode.operandKind.isPlain = true) : Carry [] [.bare instruction] := by
  refine ⟨.nil, fun other member => ?_⟩
  cases List.mem_singleton.mp member
  exact plain

theorem one {reference : Reference} {op : Op} (stands : reference.Stands op) :
    Carry [reference] [op] := by
  cases stands <;> exact ⟨.cons (by constructor <;> assumption) .nil, by simp⟩

theorem append {references others : List Reference} {ops more : List Op}
    (first : Carry references ops) (next : Carry others more) :
    Carry (references ++ others) (ops ++ more) := by
  refine ⟨?_, fun instruction member => ?_⟩
  · rw [List.filter_append]
    exact List.rel_append first.stand next.stand
  · rcases List.mem_append.mp member with inFirst | inNext
    · exact first.plain instruction inFirst
    · exact next.plain instruction inNext

end Carry

/-- Every plan for the piece of a program carries the references. -/
def Plan.Carries (plan : Plan) (references : List Reference) : Prop :=
  ∀ ops, plan = .ok ops → Carry references ops

namespace Plan.Carries

variable {plan next : Plan} {references others : List Reference}

theorem of_pure {ops : List Op} (carry : Carry references ops) :
    Plan.Carries (pure ops) references := by
  rintro _ ⟨⟩
  exact carry

theorem bare {instruction : Instruction}
    (plain : instruction.opcode.operandKind.isPlain = true) :
    (Plan.one (.bare instruction)).Carries [] :=
  of_pure (.bare plain)

theorem refused (error : CompileError) : Plan.Carries (throw error) references := nofun

theorem followedBy (first : plan.Carries references) (second : next.Carries others) :
    (plan.followedBy next).Carries (references ++ others) := by
  intro _ planned
  obtain ⟨ops, more, isFirst, isNext, rfl⟩ := Plan.followedBy_eq_ok.mp planned
  exact (first ops isFirst).append (second more isNext)

/-- Operations without a constant in front. -/
theorem afterBare {instruction : Instruction}
    (plain : instruction.opcode.operandKind.isPlain = true) (second : next.Carries others) :
    ((Plan.one (.bare instruction)).followedBy next).Carries others :=
  followedBy (bare plain) second

theorem thenBare (first : plan.Carries references) {instruction : Instruction}
    (plain : instruction.opcode.operandKind.isPlain = true) :
    (plan.followedBy (Plan.one (.bare instruction))).Carries references := by
  have both := first.followedBy (bare plain)
  rwa [List.append_nil] at both

theorem check {refusal : Prop} [Decidable refusal] {error : CompileError}
    (carries : ¬ refusal → plan.Carries references) :
    Plan.Carries (if refusal then throw error else plan) references := by
  intro ops planned
  obtain ⟨passed, planned⟩ := Plan.check_eq_ok.mp planned
  exact carries passed ops planned

theorem ask {α : Type} {question : Except CompileError α} {plan : α → Plan}
    (carries : ∀ answer, question = .ok answer → (plan answer).Carries references) :
    Plan.Carries (question >>= plan) references := by
  intro ops planned
  obtain ⟨answer, isAnswer, planned⟩ := Except.bind_eq_ok.mp planned
  exact carries answer isAnswer ops planned

theorem message (toSuper : Bool) (selector : Selector) {count : Nat}
    (few : count ≤ Instruction.maxPackedCount) :
    (Plan.one (.pooled (if toSuper then .superSend else .send) (.string selector)
      (some count))).Carries [.message toSuper selector count] :=
  of_pure (.one (.message rfl few))

end Plan.Carries

/-! ## Expressions -/

theorem carries_literal (value : Literal) : (Plan.one value.op).Carries value.references := by
  cases value with
  | bool value =>
      cases value with
      | true | false =>
          exact .bare rfl
  | nil =>
      exact .bare rfl
  | int _ | float _ | string _ | symbol _ =>
      exact .of_pure (.one (.literal rfl))

theorem Surroundings.carries_access (surroundings : Surroundings) (access : Access)
    (name : String) :
    (access.plan surroundings name).Carries (surroundings.references access name) := by
  refine .ask fun location placed => ?_
  unfold Surroundings.references
  rw [(Surroundings.place_eq_ok.mp placed).1]
  cases location with
  | slot _ | outer _ _ | field _ =>
      cases access <;> exact .bare rfl
  | classVar | global =>
      cases access <;> exact .of_pure (.one (.use rfl rfl))

theorem Surroundings.carries_name (surroundings : Surroundings) (name : String) :
    (namePlan surroundings name).Carries
      (if isPseudoVariable name then [] else surroundings.references .load name) := by
  unfold namePlan
  by_cases isPseudo : isPseudoVariable name = true
  · rw [if_pos isPseudo]
    split
    · exact .bare rfl
    split
    · exact .refused _
    split
    · exact .bare rfl
    split
    · exact .bare rfl
    split
    · exact .bare rfl
    · rename_i notSelf notSuper notNil notTrue notFalse
      simp [isPseudoVariable, notSelf, notSuper, notNil, notTrue, notFalse] at isPseudo
  · rw [if_neg isPseudo]
    have other : ∀ {pseudo : String}, isPseudoVariable pseudo = true → name ≠ pseudo := by
      rintro pseudo isOther rfl
      exact isPseudo isOther
    rw [if_neg (other rfl), if_neg (other rfl), if_neg (other rfl), if_neg (other rfl),
      if_neg (other rfl)]
    exact surroundings.carries_access .load name

/-- Nothing is to be looked up for `super`. -/
theorem Expr.references_of_isSuper {receiver : Expr} (isSuper : receiver.isSuper = true)
    (surroundings : Surroundings) : receiver.references surroundings = [] := by
  cases receiver with
  | super =>
      rw [Expr.references]
  | var name =>
      have isName : name = "super" := by simpa [Expr.isSuper] using isSuper
      rw [isName, Expr.references]
      rfl
  | _ =>
      cases isSuper

mutual

theorem carries_expr (surroundings : Surroundings) : (expr : Expr) →
    (expr.plan surroundings).Carries (expr.references surroundings)
  | .literal value => by
      rw [Expr.plan, Expr.references]
      exact carries_literal value
  | .var name => by
      rw [Expr.plan, Expr.references]
      exact surroundings.carries_name name
  | .self => by
      rw [Expr.plan, Expr.references]
      exact .bare rfl
  | .super => by
      rw [Expr.plan]
      exact .refused _
  | .assign target value => by
      rw [Expr.plan, Expr.references]
      exact .check fun _ => (carries_expr surroundings value).followedBy
        (surroundings.carries_access .store target)
  | .send receiver selector arguments => by
      rw [Expr.plan, Expr.references]
      refine .ask fun _ checked => ?_
      have few := (checkArity_ok checked).1
      refine Plan.Carries.followedBy ?_ ((carries_all surroundings arguments).followedBy
        (.message receiver.isSuper selector few))
      by_cases isSuper : receiver.isSuper = true
      · rw [if_pos isSuper, Expr.references_of_isSuper isSuper]
        exact .check fun _ => .bare rfl
      · rw [if_neg isSuper]
        exact carries_expr surroundings receiver
  | .cascade receiver messages => by
      rw [Expr.plan, Expr.references]
      exact .check fun _ => .check fun _ => (carries_expr surroundings receiver).followedBy
        (carries_messages surroundings messages)
  | .block parameters body => by
      rw [Expr.plan, Expr.references]
      refine .check fun few => .ask fun unit isUnit => .of_pure (.one (.block ?_ ?_))
      · exact Nat.le_of_not_lt few
      · exact (realizes_statements (surroundings.inBlock parameters) true body).toUnit.mp isUnit
  | .array elements => by
      rw [Expr.plan, Expr.references]
      exact (carries_all surroundings elements).thenBare rfl
  | .dictionary entries => by
      rw [Expr.plan, Expr.references]
      exact (carries_entries surroundings entries).thenBare rfl

theorem carries_all (surroundings : Surroundings) : (exprs : List Expr) →
    (planAll surroundings exprs).Carries (referencesOfAll surroundings exprs)
  | [] => by
      rw [planAll, referencesOfAll]
      exact .of_pure .nothing
  | expr :: rest => by
      rw [planAll, referencesOfAll]
      exact (carries_expr surroundings expr).followedBy (carries_all surroundings rest)

theorem carries_messages (surroundings : Surroundings) : (messages : List Message) →
    (planMessages surroundings messages).Carries (referencesOfMessages surroundings messages)
  | [] => by
      rw [planMessages, referencesOfMessages]
      exact .of_pure .nothing
  | ⟨selector, arguments⟩ :: rest => by
      rw [planMessages, referencesOfMessages]
      refine .ask fun _ checked => ?_
      have few := (checkArity_ok checked).1
      have others : Plan.Carries
          ((Plan.one (.bare (.bare .pop))).followedBy (planMessages surroundings rest))
          (referencesOfMessages surroundings rest) :=
        .afterBare rfl (carries_messages surroundings rest)
      refine .afterBare rfl ((carries_all surroundings arguments).followedBy ?_)
      exact Plan.Carries.followedBy (.message false selector few) others

theorem carries_entries (surroundings : Surroundings) : (entries : List Entry) →
    (planEntries surroundings entries).Carries (referencesOfEntries surroundings entries)
  | [] => by
      rw [planEntries, referencesOfEntries]
      exact .of_pure .nothing
  | ⟨key, value⟩ :: rest => by
      rw [planEntries, referencesOfEntries]
      exact (carries_expr surroundings key).followedBy
        ((carries_expr surroundings value).followedBy (carries_entries surroundings rest))

end

/-! ## Bodies and programs -/

theorem isPlain_afterStatement (isLast : Bool) :
    (afterStatement isLast).opcode.operandKind.isPlain = true := by
  cases isLast <;> rfl

theorem isPlain_returnOpcode (kind : BodyKind) :
    (returnOpcode kind).operandKind.isPlain = true := by
  cases kind <;> rfl

theorem isPlain_emptyBodyPush (kind : BodyKind) :
    (emptyBodyPush kind).opcode.operandKind.isPlain = true := by
  cases kind <;> rfl

theorem carries_statements (surroundings : Surroundings) (statements : List Stmt) :
    (planStatements surroundings false statements).Carries
      (statements.flatMap (Stmt.references surroundings)) := by
  induction statements with
  | nil =>
      rw [planStatements]
      exact .of_pure .nothing
  | cons statement rest inductionHypothesis =>
      rw [List.flatMap_cons]
      cases statement with
      | expr value =>
          rw [planStatements]
          exact (carries_expr surroundings value).followedBy
            (.afterBare (isPlain_afterStatement _) inductionHypothesis)
      | «return» value =>
          rw [planStatements]
          exact (carries_expr surroundings value).followedBy
            (.afterBare (isPlain_returnOpcode _) inductionHypothesis)
      | declare _ | define _ =>
          rw [planStatements]
          exact .refused _

/-- Where the body starts with something else than a declaration, its names are there already. -/
theorem Surroundings.within_of_plain {surroundings : Surroundings} {statements : List Stmt}
    (noNames : declaredFirst statements = []) : surroundings.within statements = surroundings := by
  unfold Surroundings.within
  rw [noNames, Surroundings.declareNames_nil]

/-- The operations of a body carry its references. -/
theorem carries_body (surroundings : Surroundings) (statements : List Stmt) :
    (planStatements surroundings true statements).Carries
      (surroundings.bodyReferences statements) := by
  induction statements generalizing surroundings with
  | nil =>
      rw [planStatements]
      exact .afterBare (isPlain_emptyBodyPush _) (.bare rfl)
  | cons statement rest inductionHypothesis =>
      cases statement with
      | declare names =>
          rw [planStatements]
          refine .ask fun extended declared => ?_
          obtain ⟨_, rfl⟩ := Surroundings.declareAll_eq_ok_iff.mp declared
          have further := inductionHypothesis (surroundings.declareNames names)
          unfold Surroundings.bodyReferences at further ⊢
          rw [surroundings.within_declare, List.flatMap_cons]
          exact further
      | expr value =>
          have plain := carries_statements surroundings (.expr value :: rest)
          unfold Surroundings.bodyReferences
          rw [Surroundings.within_of_plain rfl]
          rw [planStatements] at plain ⊢
          exact plain
      | «return» value =>
          have plain := carries_statements surroundings (.return value :: rest)
          unfold Surroundings.bodyReferences
          rw [Surroundings.within_of_plain rfl]
          rw [planStatements] at plain ⊢
          exact plain
      | define definition =>
          rw [planStatements]
          exact .refused _

/-- A statement of a program, the instruction after it and the statements that follow. -/
theorem Carry.statement {references others : List Reference} {valueOps restOps : List Op} {op : Op}
    (first : Carry references valueOps) (plain : Carry [] [op]) (next : Carry others restOps) :
    Carry (references ++ others) (valueOps ++ op :: restOps) :=
  first.append (plain.append next)

/-- The operations of a program carry its references. -/
theorem carry_program {leading : Bool} {session final : Session} {program : Program}
    {ops : List Op} (planned : planProgram leading session program = .ok (final, ops)) :
    Carry (Program.references session program) ops := by
  induction program generalizing leading session ops with
  | nil =>
      cases leading with
      | true =>
          cases planned
          exact (Carry.bare (isPlain_emptyBodyPush .topLevel)).append (Carry.bare rfl)
      | false =>
          cases planned
          exact .nothing
  | cons statement rest inductionHypothesis =>
      cases statement with
      | declare names =>
          obtain ⟨_, _, declared, restPlanned⟩ := planProgram_declare_ok planned
          obtain ⟨_, rfl⟩ := Session.declareAll_eq_ok_iff.mp declared
          exact inductionHypothesis restPlanned
      | define definition =>
          obtain ⟨_, descriptor, _, classLowered, restPlanned, rfl⟩ := planProgram_define_ok planned
          obtain ⟨_, rfl⟩ := Session.lowerClass_isOk_iff.mp ⟨descriptor, classLowered⟩
          exact Carry.statement (.one (.definition classLowered))
            (.bare (isPlain_afterStatement _)) (inductionHypothesis restPlanned)
      | expr value =>
          obtain ⟨valueOps, _, valuePlanned, restPlanned, rfl⟩ := planProgram_expr_ok planned
          exact Carry.statement (carries_expr session.topLevel value valueOps valuePlanned)
            (.bare (isPlain_afterStatement _)) (inductionHypothesis restPlanned)
      | «return» value =>
          obtain ⟨valueOps, _, valuePlanned, restPlanned, rfl⟩ := planProgram_return_ok planned
          exact Carry.statement (carries_expr session.topLevel value valueOps valuePlanned)
            (.bare rfl) (inductionHypothesis restPlanned)

/-! ## Units -/

/-- The unit has been put together from operations that carry the references. -/
def CodeUnit.ComesFrom (unit : CodeUnit) (references : List Reference) : Prop :=
  ∃ ops, Carry references ops ∧ assemble ops .empty = .ok ((), unit)

theorem Session.comesFrom_of_compile {session final : Session} {program : Program}
    {unit : CodeUnit} (compiled : session.compile program = (final, .ok unit)) :
    unit.ComesFrom (Program.references session program) := by
  obtain ⟨ops, planned, assembled⟩ := lowerProgramFrom_eq_ok.mp (Session.compile_eq_ok.mp compiled)
  exact ⟨ops, carry_program planned, assembled⟩

theorem Surroundings.comesFrom_of_lower {surroundings : Surroundings} {statements : List Stmt}
    {unit : CodeUnit}
    (lowered : lowerStatements surroundings true statements .empty = .ok ((), unit)) :
    unit.ComesFrom (surroundings.bodyReferences statements) := by
  obtain ⟨ops, planned, assembled⟩ :=
    (realizes_statements surroundings true statements _ _).mp lowered
  exact ⟨ops, carries_body surroundings statements ops planned, assembled⟩

/-- The unit is that of the block, or of a method of the class. -/
inductive Reference.Contains : Reference → CodeUnit → Prop
  | block {surroundings : Surroundings} {parameters : List String} {body : List Stmt}
      {unit : CodeUnit} :
      lowerStatements (surroundings.inBlock parameters) true body .empty = .ok ((), unit) →
      Contains (.block surroundings parameters body) unit
  | method {session : Session} {definition : ClassDef} {classSide : Bool} {method : MethodDef}
      {unit : CodeUnit} : method ∈ definition.methodsOn classSide →
      lowerStatements (session.inMethod definition classSide method.parameters) true method.body
        .empty = .ok ((), unit) →
      Contains (.definition session definition) unit

/-- The units of a class are those of its methods. -/
theorem lowerClass_units {session extended : Session} {definition : ClassDef}
    {descriptor : ClassDescriptor} {unit : CodeUnit}
    (lowered : lowerClass session definition = (extended, .ok descriptor))
    (isUnit : unit ∈ (Constant.classDescriptor descriptor).units) :
    (Reference.definition session definition).Contains unit := by
  obtain ⟨_, isShape, rfl, methodsLowered⟩ := lowerClass_eq_ok.mp lowered
  obtain ⟨_, rfl⟩ := Session.shapeOf_eq_ok_iff.mp isShape
  obtain ⟨_, _, ofMethods, ofClassMethods, rfl⟩ := lowerMethods_eq_ok.mp methodsLowered
  obtain ⟨method, isMethod, rfl⟩ := List.mem_map.mp isUnit
  rcases List.mem_append.mp isMethod with member | member
  · obtain ⟨written, isWritten, lowered⟩ := Except.exists_of_mem_mapM ofMethods member
    obtain ⟨_, _, bodyLowered, rfl⟩ := lowerMethod_eq_ok.mp lowered
    exact @Reference.Contains.method _ _ false _ _ isWritten bodyLowered
  · obtain ⟨written, isWritten, lowered⟩ := Except.exists_of_mem_mapM ofClassMethods member
    obtain ⟨_, _, bodyLowered, rfl⟩ := lowerMethod_eq_ok.mp lowered
    exact @Reference.Contains.method _ _ true _ _ isWritten bodyLowered

/-- An operation with a constant stands for one of the references. -/
theorem Carry.exists_reference {references : List Reference} {ops : List Op} {op : Op}
    (carry : Carry references ops) (isOp : op ∈ ops) (isPooled : op.isPooled = true) :
    ∃ reference ∈ references, reference.Stands op := by
  have member : op ∈ ops.filter Op.isPooled := List.mem_filter.mpr ⟨isOp, isPooled⟩
  obtain ⟨place, isThere⟩ := List.mem_iff_get.mp member
  obtain ⟨sameLength, stand⟩ := List.forall₂_iff_get.mp carry.stand
  have inside : place.val < references.length := Nat.lt_of_lt_of_eq place.isLt sameLength.symm
  refine ⟨references.get ⟨place.val, inside⟩, List.get_mem _ _, ?_⟩
  rw [← isThere]
  exact stand place.val inside place.isLt

theorem Literal.units_of_constant? {value : Literal} {constant : Constant}
    (isConstant : value.constant? = some constant) : constant.units = [] := by
  cases value <;> cases isConstant <;> rfl

/-- A unit inside of another one belongs to one of its references. -/
theorem CodeUnit.ComesFrom.inner {unit inner : CodeUnit} {references : List Reference} {turn : Turn}
    (comesFrom : unit.ComesFrom references) (found : unit.inner? turn = some inner) :
    ∃ reference ∈ references, reference.Contains inner := by
  obtain ⟨ops, carry, isAssembled⟩ := comesFrom
  obtain ⟨constant, isConstant, isUnit⟩ := mem_units_of_inner? found
  have assembled := assembled_of_assemble CodeUnit.poolFits_empty isAssembled
  rcases assembled.origin constant isConstant with impossible | ofOps
  · exact (List.not_mem_nil impossible).elim
  · obtain ⟨op, isOp, ofOp⟩ := List.mem_flatMap.mp ofOps
    cases op with
    | bare instruction =>
        cases ofOp
    | pooled opcode own count =>
        obtain rfl := List.mem_singleton.mp ofOp
        obtain ⟨reference, isReference, stands⟩ := carry.exists_reference isOp rfl
        refine ⟨reference, isReference, ?_⟩
        cases stands with
        | block _ lowered =>
            obtain rfl := List.mem_singleton.mp isUnit
            exact .block lowered
        | definition lowered =>
            exact lowerClass_units lowered isUnit
        | message _ _ | use _ _ =>
            cases isUnit
        | literal isLiteral =>
            rw [Literal.units_of_constant? isLiteral] at isUnit
            cases isUnit

/-! ## The bodies of a program -/

/-- Where a reference may come from: a block from an expression in the surroundings, and a class
from none. -/
def Reference.IsOf (reference : Reference) (surroundings : Surroundings) (parts : List Expr) :
    Prop :=
  match reference with
  | .block inside parameters body => inside = surroundings ∧ .block parameters body ∈ parts
  | .definition .. => False
  | .literal _ | .message .. | .use .. => True

namespace Reference.IsOf

variable {reference : Reference} {surroundings : Surroundings} {parts others : List Expr}

theorem mono (isOf : reference.IsOf surroundings parts) (isPart : parts ⊆ others) :
    reference.IsOf surroundings others := by
  cases reference with
  | block inside parameters body =>
      exact ⟨isOf.1, isPart isOf.2⟩
  | definition _ _ =>
      exact isOf
  | literal _ | message _ _ _ | use _ _ _ =>
      trivial

theorem of_literal {value : Literal} (member : reference ∈ value.references) :
    reference.IsOf surroundings parts := by
  unfold Literal.references at member
  split at member
  · rw [List.mem_singleton.mp member]
    trivial
  · cases member

theorem of_use {access : Access} {name : String}
    (member : reference ∈ surroundings.references access name) :
    reference.IsOf surroundings parts := by
  unfold Surroundings.references at member
  split at member
  · rw [List.mem_singleton.mp member]
    trivial
  · rw [List.mem_singleton.mp member]
    trivial
  all_goals cases member

end Reference.IsOf

mutual

theorem isOf_expr {surroundings : Surroundings} {reference : Reference} : (expr : Expr) →
    reference ∈ expr.references surroundings → reference.IsOf surroundings expr.parts
  | .literal value, member => .of_literal (by rwa [Expr.references] at member)
  | .var name, member => by
      rw [Expr.references] at member
      split at member
      · cases member
      · exact .of_use member
  | .self, member | .super, member => by
      rw [Expr.references] at member
      cases member
  | .assign target value, member => by
      rw [Expr.references, List.mem_append] at member
      rw [Expr.parts]
      rcases member with ofValue | ofTarget
      · exact (isOf_expr value ofValue).mono (List.subset_cons_self _ _)
      · exact .of_use ofTarget
  | .send receiver selector arguments, member => by
      rw [Expr.references, List.mem_append, List.mem_append] at member
      rw [Expr.parts]
      rcases member with ofReceiver | ofArguments | isMessage
      · refine (isOf_expr receiver ofReceiver).mono ?_
        by_cases isSuper : receiver.isSuper = true
        · rw [Expr.references_of_isSuper isSuper] at ofReceiver
          cases ofReceiver
        · rw [if_neg isSuper]
          exact fun part isPart => List.mem_cons_of_mem _ (List.mem_append_left _ isPart)
      · exact (isOf_all arguments ofArguments).mono
          fun part isPart => List.mem_cons_of_mem _ (List.mem_append_right _ isPart)
      · rw [List.mem_singleton.mp isMessage]
        trivial
  | .cascade receiver messages, member => by
      rw [Expr.references, List.mem_append] at member
      rw [Expr.parts]
      rcases member with ofReceiver | ofMessages
      · exact (isOf_expr receiver ofReceiver).mono
          fun part isPart => List.mem_cons_of_mem _ (List.mem_append_left _ isPart)
      · exact (isOf_messages messages ofMessages).mono
          fun part isPart => List.mem_cons_of_mem _ (List.mem_append_right _ isPart)
  | .block parameters body, member => by
      rw [Expr.references] at member
      rw [Expr.parts, List.mem_singleton.mp member]
      exact ⟨rfl, List.mem_singleton_self _⟩
  | .array elements, member => by
      rw [Expr.references] at member
      rw [Expr.parts]
      exact (isOf_all elements member).mono (List.subset_cons_self _ _)
  | .dictionary entries, member => by
      rw [Expr.references] at member
      rw [Expr.parts]
      exact (isOf_entries entries member).mono (List.subset_cons_self _ _)

theorem isOf_all {surroundings : Surroundings} {reference : Reference} : (exprs : List Expr) →
    reference ∈ referencesOfAll surroundings exprs →
      reference.IsOf surroundings (partsOfAll exprs)
  | [], member => by
      rw [referencesOfAll] at member
      cases member
  | expr :: rest, member => by
      rw [referencesOfAll, List.mem_append] at member
      rw [partsOfAll]
      rcases member with ofFirst | ofRest
      · exact (isOf_expr expr ofFirst).mono (List.subset_append_left _ _)
      · exact (isOf_all rest ofRest).mono (List.subset_append_right _ _)

theorem isOf_messages {surroundings : Surroundings} {reference : Reference} :
    (messages : List Message) → reference ∈ referencesOfMessages surroundings messages →
      reference.IsOf surroundings (partsOfMessages messages)
  | [], member => by
      rw [referencesOfMessages] at member
      cases member
  | ⟨selector, arguments⟩ :: rest, member => by
      rw [referencesOfMessages, List.mem_append, List.mem_cons] at member
      rw [partsOfMessages]
      rcases member with ofArguments | isMessage | ofRest
      · exact (isOf_all arguments ofArguments).mono (List.subset_append_left _ _)
      · rw [isMessage]
        trivial
      · exact (isOf_messages rest ofRest).mono (List.subset_append_right _ _)

theorem isOf_entries {surroundings : Surroundings} {reference : Reference} :
    (entries : List Entry) → reference ∈ referencesOfEntries surroundings entries →
      reference.IsOf surroundings (partsOfEntries entries)
  | [], member => by
      rw [referencesOfEntries] at member
      cases member
  | ⟨key, value⟩ :: rest, member => by
      rw [referencesOfEntries, List.mem_append, List.mem_append] at member
      rw [partsOfEntries, List.append_assoc]
      rcases member with ofKey | ofValue | ofRest
      · exact (isOf_expr key ofKey).mono (List.subset_append_left _ _)
      · exact (isOf_expr value ofValue).mono
          fun part isPart => List.mem_append_right _ (List.mem_append_left _ isPart)
      · exact (isOf_entries rest ofRest).mono
          fun part isPart => List.mem_append_right _ (List.mem_append_right _ isPart)

end

theorem isOf_statement {surroundings : Surroundings} {reference : Reference} {statement : Stmt}
    (member : reference ∈ statement.references surroundings) :
    reference.IsOf surroundings statement.parts := by
  cases statement with
  | expr value | «return» value =>
      exact isOf_expr value member
  | declare _ | define _ =>
      cases member

theorem isOf_body {surroundings : Surroundings} {reference : Reference} {statements : List Stmt}
    (member : reference ∈ surroundings.bodyReferences statements) :
    reference.IsOf (surroundings.within statements) (partsOfBody statements) := by
  obtain ⟨statement, isStatement, isReference⟩ := List.mem_flatMap.mp member
  exact (isOf_statement isReference).mono
    fun part isPart => List.mem_flatMap.mpr ⟨statement, isStatement, isPart⟩

/-- A reference of a program comes from one of its statements, in the session that the earlier ones
have reached. -/
theorem Program.mem_references {session : Session} {program : Program} {reference : Reference}
    (member : reference ∈ Program.references session program) :
    ∃ earlier statement later, program = earlier ++ statement :: later ∧
      ((∃ definition, statement = .define definition ∧
          reference = .definition (session.pastAll earlier) definition) ∨
        reference.IsOf (session.pastAll earlier).topLevel statement.parts) := by
  induction program generalizing session with
  | nil =>
      rw [Program.references] at member
      cases member
  | cons first rest inductionHypothesis =>
      have further : reference ∈ Program.references (session.past first) rest →
          ∃ earlier statement later, first :: rest = earlier ++ statement :: later ∧
            ((∃ definition, statement = .define definition ∧
                reference = .definition (session.pastAll earlier) definition) ∨
              reference.IsOf (session.pastAll earlier).topLevel statement.parts) := by
        intro ofRest
        obtain ⟨earlier, statement, later, isRest, isFrom⟩ := inductionHypothesis ofRest
        exact ⟨first :: earlier, statement, later, by rw [isRest, List.cons_append], isFrom⟩
      cases first with
      | define definition =>
          rw [Program.references, List.mem_cons] at member
          rcases member with isClass | ofRest
          · exact ⟨[], _, rest, rfl, Or.inl ⟨definition, rfl, isClass⟩⟩
          · exact further ofRest
      | expr _ | «return» _ | declare _ =>
          rw [Program.references, List.mem_append] at member
          rcases member with ofFirst | ofRest
          · exact ⟨[], _, rest, rfl, Or.inr (isOf_statement ofFirst)⟩
          · exact further ofRest
          all_goals nofun

/-- Every unit in the code of a body is that of a body, too. -/
theorem Program.HasBody.exists_inner {session : Session} {program : Program} {path : List Turn}
    {unit inner : CodeUnit} {surroundings : Surroundings} {statements : List Stmt}
    (isBody : program.HasBody session surroundings statements)
    (lowered : lowerStatements surroundings true statements .empty = .ok ((), unit))
    (found : unit.unitAt? path = some inner) :
    ∃ surroundings statements, program.HasBody session surroundings statements ∧
      lowerStatements surroundings true statements .empty = .ok ((), inner) := by
  induction path generalizing unit surroundings statements with
  | nil =>
      obtain rfl := Option.some.inj found
      exact ⟨surroundings, statements, isBody, lowered⟩
  | cons turn path inductionHypothesis =>
      obtain ⟨between, isBetween, further⟩ := CodeUnit.unitAt?_cons_eq_some_iff.mp found
      obtain ⟨reference, isReference, contains⟩ :=
        (Surroundings.comesFrom_of_lower lowered).inner isBetween
      have isOf := isOf_body isReference
      cases contains with
      | block blockLowered =>
          obtain ⟨rfl, isPart⟩ := isOf
          exact inductionHypothesis (.block isBody isPart) blockLowered further
      | method _ _ =>
          exact isOf.elim

/-- Every unit in the code of a program is that of one of its bodies. -/
theorem Program.exists_body {session final : Session} {program : Program}
    {unit inner : CodeUnit} {turn : Turn} {path : List Turn}
    (compiled : session.compile program = (final, .ok unit))
    (found : unit.unitAt? (turn :: path) = some inner) :
    ∃ surroundings statements, program.HasBody session surroundings statements ∧
      lowerStatements surroundings true statements .empty = .ok ((), inner) := by
  obtain ⟨between, isBetween, further⟩ := CodeUnit.unitAt?_cons_eq_some_iff.mp found
  obtain ⟨reference, isReference, contains⟩ :=
    (Session.comesFrom_of_compile compiled).inner isBetween
  obtain ⟨earlier, statement, later, isWhole, isFrom⟩ := Program.mem_references isReference
  rcases isFrom with ⟨definition, rfl, rfl⟩ | isOf
  · cases contains with
    | method isMethod lowered =>
        exact Program.HasBody.exists_inner (.method isWhole isMethod) lowered further
  · cases contains with
    | block lowered =>
        obtain ⟨rfl, isPart⟩ := isOf
        exact Program.HasBody.exists_inner (.blockAtTop isWhole isPart) lowered further
    | method _ _ =>
        exact isOf.elim

end Missive
