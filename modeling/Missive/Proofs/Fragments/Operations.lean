import Missive.Proofs.Alike.Link
import Missive.Proofs.Compile.Plan

/-!
# Operations of a fragment

What a machine does with an operation depends on its constant and not on the place of the constant
in the pool.  The operations of an expression are all of this kind, and none of them ends the
activation.  Where no statement outside of methods returns, no block of the fragment can end the
program either.
-/

namespace Missive

/-! ## Operations of a plan -/

namespace Op

/-- The operation does not end the activation. -/
structure Onward (op : Op) : Prop where
  proper : op.Proper
  notReturn : op.opcode ≠ .return

/-- Neither the operation nor a block that it creates returns from its home. -/
structure Returnless (op : Op) : Prop where
  notReturn : op.opcode ≠ .nonLocalReturn
  blocks : ∀ body, .block body ∈ op.constants → body.Returnless

theorem onward_bare {instruction : Instruction}
    (plain : instruction.opcode.operandKind.isPlain = true)
    (notReturn : instruction.opcode ≠ .return)
    (notNonLocal : instruction.opcode ≠ .nonLocalReturn) : (Op.bare instruction).Onward :=
  ⟨.bare plain notNonLocal, notReturn⟩

theorem returnless_bare {instruction : Instruction}
    (notNonLocal : instruction.opcode ≠ .nonLocalReturn) : (Op.bare instruction).Returnless :=
  ⟨notNonLocal, fun _ impossible => (List.not_mem_nil impossible).elim⟩

theorem returnless_scalar {opcode : Opcode} {constant : Constant} {count : Option Nat}
    (notNonLocal : opcode ≠ .nonLocalReturn) (scalar : constant.isScalar = true) :
    (Op.pooled opcode constant count).Returnless := by
  refine ⟨notNonLocal, fun body member => ?_⟩
  cases List.mem_singleton.mp member
  cases scalar

end Op

namespace Plan

/-- Every operation of the plan, if there is one, is as said. -/
def Each (plan : Plan) (holds : Op → Prop) : Prop := ∀ ops, plan = .ok ops → ∀ op ∈ ops, holds op

variable {plan next : Plan} {holds : Op → Prop}

theorem each_nothing : Each (pure []) holds := by
  rintro _ ⟨⟩ _ impossible
  exact (List.not_mem_nil impossible).elim

theorem each_one {op : Op} (is : holds op) : (Plan.one op).Each holds := by
  rintro _ ⟨⟩ other member
  cases List.mem_singleton.mp member
  exact is

theorem each_throw (error : CompileError) : Each (throw error) holds := by
  rintro _ ⟨⟩

theorem Each.followedBy (first : plan.Each holds) (second : next.Each holds) :
    (plan.followedBy next).Each holds := by
  intro ops planned op member
  obtain ⟨firstOps, nextOps, firstPlanned, nextPlanned, rfl⟩ := followedBy_eq_ok.mp planned
  rcases List.mem_append.mp member with inFirst | inNext
  · exact first firstOps firstPlanned op inFirst
  · exact second nextOps nextPlanned op inNext

/-- A check in front of a plan.  The plan may rely on it. -/
theorem each_check {condition : Prop} [Decidable condition] {error : CompileError}
    (passed : ¬ condition → plan.Each holds) :
    Each (if condition then throw error else plan) holds := by
  intro ops planned
  obtain ⟨notRefused, planned⟩ := check_eq_ok.mp planned
  exact passed notRefused ops planned

theorem each_ask {α : Type} {question : Except CompileError α} {plan : α → Plan}
    (answered : ∀ answer, question = .ok answer → (plan answer).Each holds) :
    Each (question >>= plan) holds := by
  intro ops planned
  obtain ⟨answer, isAnswer, planned⟩ := Except.bind_eq_ok.mp planned
  exact answered answer isAnswer ops planned

end Plan

/-! ## Expressions do not end an activation -/

section Onward

open Plan

theorem Literal.onward_op (value : Literal) : value.op.Onward := by
  cases value with
  | bool value =>
      cases value with
      | true | false =>
          exact Op.onward_bare rfl nofun nofun
  | nil =>
      exact Op.onward_bare rfl nofun nofun
  | int _ | float _ | string _ | symbol _ =>
      exact ⟨.literal rfl, nofun⟩

theorem Access.onward_op (access : Access) (name : String) (location : Location) :
    (access.op name location).Onward := by
  cases location with
  | slot _ | outer _ _ | field _ =>
      cases access with
      | load | store =>
          exact Op.onward_bare rfl nofun nofun
  | classVar | global =>
      cases access with
      | load | store =>
          exact ⟨.name rfl, nofun⟩

theorem onward_access (surroundings : Surroundings) (access : Access) (name : String) :
    (access.plan surroundings name).Each Op.Onward :=
  each_ask fun location _ => each_one (access.onward_op name location)

theorem onward_name (surroundings : Surroundings) (name : String) :
    (namePlan surroundings name).Each Op.Onward := by
  have pushed : ∀ {opcode : Opcode}, opcode.operandKind.isPlain = true → opcode ≠ .return →
      opcode ≠ .nonLocalReturn → (Plan.one (.bare (.bare opcode))).Each Op.Onward :=
    fun plain notReturn notNonLocal => each_one (Op.onward_bare plain notReturn notNonLocal)
  unfold namePlan
  split
  · exact pushed rfl nofun nofun
  split
  · exact each_throw _
  split
  · exact pushed rfl nofun nofun
  split
  · exact pushed rfl nofun nofun
  split
  · exact pushed rfl nofun nofun
  exact onward_access surroundings .load name

theorem onward_super (surroundings : Surroundings) :
    (superPlan surroundings).Each Op.Onward :=
  each_check fun _ => each_one (Op.onward_bare rfl nofun nofun)

theorem onward_message {opcode : Opcode} {selector : Selector} {count : Nat}
    (isMessage : opcode.operandKind = .send) (few : count ≤ Instruction.maxPackedCount) :
    (Plan.one (.pooled opcode (.string selector) (some count))).Each Op.Onward := by
  refine each_one ⟨.message isMessage few, fun isReturn => ?_⟩
  have isReturn : opcode = .return := isReturn
  rw [isReturn] at isMessage
  cases isMessage

mutual

theorem onward_expr (surroundings : Surroundings) : (expr : Expr) →
    (expr.plan surroundings).Each Op.Onward
  | .literal value => by
      rw [Expr.plan]
      exact each_one value.onward_op
  | .var name => by
      rw [Expr.plan]
      exact onward_name surroundings name
  | .self => by
      rw [Expr.plan]
      exact each_one (Op.onward_bare rfl nofun nofun)
  | .super => by
      rw [Expr.plan]
      exact each_throw _
  | .assign target value => by
      rw [Expr.plan]
      exact each_check fun _ =>
        (onward_expr surroundings value).followedBy (onward_access surroundings .store target)
  | .send receiver selector arguments => by
      rw [Expr.plan]
      refine each_ask fun _ arity => ?_
      obtain ⟨few, _⟩ := checkArity_ok arity
      refine Each.followedBy ?_ ((onward_all surroundings arguments).followedBy ?_)
      · split
        · exact onward_super surroundings
        · exact onward_expr surroundings receiver
      · split
        · exact onward_message rfl few
        · exact onward_message rfl few
  | .cascade receiver messages => by
      rw [Expr.plan]
      exact each_check fun _ => each_check fun _ =>
        (onward_expr surroundings receiver).followedBy (onward_messages surroundings messages)
  | .block parameters body => by
      rw [Expr.plan]
      refine each_check fun few => each_ask fun unit _ => each_one ⟨.block ?_, nofun⟩
      exact Nat.not_lt.mp few
  | .array elements => by
      rw [Expr.plan]
      exact (onward_all surroundings elements).followedBy
        (each_one (Op.onward_bare rfl nofun nofun))
  | .dictionary entries => by
      rw [Expr.plan]
      exact (onward_entries surroundings entries).followedBy
        (each_one (Op.onward_bare rfl nofun nofun))

theorem onward_all (surroundings : Surroundings) : (exprs : List Expr) →
    (planAll surroundings exprs).Each Op.Onward
  | [] => by
      rw [planAll]
      exact each_nothing
  | expr :: rest => by
      rw [planAll]
      exact (onward_expr surroundings expr).followedBy (onward_all surroundings rest)

theorem onward_messages (surroundings : Surroundings) : (messages : List Message) →
    (planMessages surroundings messages).Each Op.Onward
  | [] => by
      rw [planMessages]
      exact each_nothing
  | ⟨selector, arguments⟩ :: rest => by
      rw [planMessages]
      refine each_ask fun _ arity => ?_
      obtain ⟨few, _⟩ := checkArity_ok arity
      have duplicated : (Plan.one (.bare (.bare .dup))).Each Op.Onward :=
        each_one (Op.onward_bare rfl nofun nofun)
      have dropped : (Plan.one (.bare (.bare .pop))).Each Op.Onward :=
        each_one (Op.onward_bare rfl nofun nofun)
      exact duplicated.followedBy <| (onward_all surroundings arguments).followedBy <|
        (onward_message rfl few).followedBy <|
          dropped.followedBy (onward_messages surroundings rest)

theorem onward_entries (surroundings : Surroundings) : (entries : List Entry) →
    (planEntries surroundings entries).Each Op.Onward
  | [] => by
      rw [planEntries]
      exact each_nothing
  | ⟨key, value⟩ :: rest => by
      rw [planEntries]
      exact (onward_expr surroundings key).followedBy <|
        (onward_expr surroundings value).followedBy (onward_entries surroundings rest)

end

end Onward

/-! ## Blocks without returns -/

mutual

/-- No block in the expression has a statement that returns. -/
def Expr.returnless : Expr → Bool
  | .literal _ | .var _ | .self | .super => true
  | .assign _ value => value.returnless
  | .send receiver _ arguments => receiver.returnless && returnlessInAll arguments
  | .cascade receiver messages => receiver.returnless && returnlessInMessages messages
  | .block _ body => returnlessInBody body
  | .array elements => returnlessInAll elements
  | .dictionary entries => returnlessInEntries entries

/-- The same for expressions in a row. -/
def returnlessInAll : List Expr → Bool
  | [] => true
  | expr :: rest => expr.returnless && returnlessInAll rest

/-- The same for the messages of a cascade. -/
def returnlessInMessages : List Message → Bool
  | [] => true
  | ⟨_, arguments⟩ :: rest => returnlessInAll arguments && returnlessInMessages rest

/-- The same for the entries of a dictionary. -/
def returnlessInEntries : List Entry → Bool
  | [] => true
  | ⟨key, value⟩ :: rest => key.returnless && value.returnless && returnlessInEntries rest

/-- No statement returns, neither one of these nor one in a block.  Methods do not count. -/
def returnlessInBody : List Stmt → Bool
  | [] => true
  | .expr value :: rest => value.returnless && returnlessInBody rest
  | .return _ :: _ => false
  | .declare _ :: rest | .define _ :: rest => returnlessInBody rest

end

/-- No statement of the program returns, except in methods. -/
def Program.returnless (program : Program) : Bool := returnlessInBody program

section Returnless

open Plan

theorem Literal.returnless_op (value : Literal) : value.op.Returnless := by
  cases value with
  | bool value =>
      cases value with
      | true | false =>
          exact Op.returnless_bare nofun
  | nil =>
      exact Op.returnless_bare nofun
  | int _ | float _ | string _ | symbol _ =>
      exact Op.returnless_scalar nofun rfl

theorem Access.returnless_op (access : Access) (name : String) (location : Location) :
    (access.op name location).Returnless := by
  cases location with
  | slot _ | outer _ _ | field _ =>
      cases access with
      | load | store =>
          exact Op.returnless_bare nofun
  | classVar | global =>
      cases access with
      | load | store =>
          exact Op.returnless_scalar nofun rfl

theorem returnless_access (surroundings : Surroundings) (access : Access) (name : String) :
    (access.plan surroundings name).Each Op.Returnless :=
  each_ask fun location _ => each_one (access.returnless_op name location)

theorem returnless_name (surroundings : Surroundings) (name : String) :
    (namePlan surroundings name).Each Op.Returnless := by
  have pushed : ∀ {opcode : Opcode}, opcode ≠ .nonLocalReturn →
      (Plan.one (.bare (.bare opcode))).Each Op.Returnless :=
    fun notNonLocal => each_one (Op.returnless_bare notNonLocal)
  unfold namePlan
  split
  · exact pushed nofun
  split
  · exact each_throw _
  split
  · exact pushed nofun
  split
  · exact pushed nofun
  split
  · exact pushed nofun
  exact returnless_access surroundings .load name

/-- Operations and the instructions that denote them stand at the same places. -/
theorem denoted_at {pool : List Constant} {ops : List Op} {code : List Instruction}
    (denotes : List.Forall₂ (Op.Denotes pool) ops code) (place : Nat) :
    (ops[place]? = none ∧ code[place]? = none) ∨
      ∃ op instruction, ops[place]? = some op ∧ code[place]? = some instruction ∧
        op.Denotes pool instruction := by
  induction denotes generalizing place with
  | nil =>
      exact Or.inl ⟨rfl, rfl⟩
  | cons denoted _ inductionHypothesis =>
      cases place with
      | zero =>
          exact Or.inr ⟨_, _, rfl, rfl, denoted⟩
      | succ place =>
          exact inductionHypothesis place

/-- A unit is without returns where its operations are. -/
theorem CodeUnit.returnless_of_assemble {ops : List Op} {unit : CodeUnit}
    (each : ∀ op ∈ ops, op.Returnless) (isAssembled : assemble ops .empty = .ok ((), unit)) :
    unit.Returnless := by
  have assembled := assembled_of_assemble CodeUnit.poolFits_empty isAssembled
  obtain ⟨added, isCode, denotes⟩ := assembled.code
  refine .intro (fun instruction member => ?_) (fun body member => ?_)
  · rw [show unit.code.toList = added from isCode] at member
    obtain ⟨place, isThere⟩ := List.mem_iff_getElem?.mp member
    rcases denoted_at (denotes unit.constants (List.prefix_refl _)) place with
      ⟨_, missing⟩ | ⟨op, _, isOp, found, denoted⟩
    · rw [isThere] at missing
      cases missing
    · rw [isThere] at found
      cases found
      rw [← denoted.opcode]
      exact (each op (List.mem_of_getElem? isOp)).notReturn
  · rcases assembled.origin _ member with impossible | ofOps
    · exact (List.not_mem_nil impossible).elim
    · obtain ⟨op, isOp, isConstant⟩ := List.mem_flatMap.mp ofOps
      exact (each op isOp).blocks body isConstant

theorem Plan.Each.toUnit {plan : Plan} (each : plan.Each Op.Returnless) {unit : CodeUnit}
    (isUnit : plan.toUnit = .ok unit) : unit.Returnless := by
  obtain ⟨ops, planned, isUnit⟩ := Except.bind_eq_ok.mp isUnit
  obtain ⟨⟨⟨⟩, reached⟩, isAssembled, wrapped⟩ := Except.bind_eq_ok.mp isUnit
  cases wrapped
  exact CodeUnit.returnless_of_assemble (each ops planned) isAssembled

mutual

theorem returnless_expr (surroundings : Surroundings) : (expr : Expr) →
    expr.returnless = true → (expr.plan surroundings).Each Op.Returnless
  | .literal value, _ => by
      rw [Expr.plan]
      exact each_one value.returnless_op
  | .var name, _ => by
      rw [Expr.plan]
      exact returnless_name surroundings name
  | .self, _ => by
      rw [Expr.plan]
      exact each_one (Op.returnless_bare nofun)
  | .super, _ => by
      rw [Expr.plan]
      exact each_throw _
  | .assign target value, returnless => by
      rw [Expr.plan]
      exact each_check fun _ => (returnless_expr surroundings value returnless).followedBy
        (returnless_access surroundings .store target)
  | .send receiver selector arguments, returnless => by
      obtain ⟨ofReceiver, ofArguments⟩ := Bool.and_eq_true_iff.mp returnless
      rw [Expr.plan]
      refine each_ask fun _ _ => Each.followedBy ?_
        ((returnless_all surroundings arguments ofArguments).followedBy (each_one ?_))
      · split
        · exact each_check fun _ => each_one (Op.returnless_bare nofun)
        · exact returnless_expr surroundings receiver ofReceiver
      · split
        · exact Op.returnless_scalar nofun rfl
        · exact Op.returnless_scalar nofun rfl
  | .cascade receiver messages, returnless => by
      obtain ⟨ofReceiver, ofMessages⟩ := Bool.and_eq_true_iff.mp returnless
      rw [Expr.plan]
      exact each_check fun _ => each_check fun _ =>
        (returnless_expr surroundings receiver ofReceiver).followedBy
          (returnless_messages surroundings messages ofMessages)
  | .block parameters body, returnless => by
      rw [Expr.plan]
      refine each_check fun _ => each_ask fun unit isUnit =>
        each_one ⟨nofun, fun other member => ?_⟩
      cases List.mem_singleton.mp member
      exact (returnless_statements (surroundings.inBlock parameters) true body returnless).toUnit
        isUnit
  | .array elements, returnless => by
      rw [Expr.plan]
      exact (returnless_all surroundings elements returnless).followedBy
        (each_one (Op.returnless_bare nofun))
  | .dictionary entries, returnless => by
      rw [Expr.plan]
      exact (returnless_entries surroundings entries returnless).followedBy
        (each_one (Op.returnless_bare nofun))

theorem returnless_all (surroundings : Surroundings) : (exprs : List Expr) →
    returnlessInAll exprs = true → (planAll surroundings exprs).Each Op.Returnless
  | [], _ => by
      rw [planAll]
      exact each_nothing
  | expr :: rest, returnless => by
      obtain ⟨ofFirst, ofRest⟩ := Bool.and_eq_true_iff.mp returnless
      rw [planAll]
      exact (returnless_expr surroundings expr ofFirst).followedBy
        (returnless_all surroundings rest ofRest)

theorem returnless_messages (surroundings : Surroundings) : (messages : List Message) →
    returnlessInMessages messages = true → (planMessages surroundings messages).Each Op.Returnless
  | [], _ => by
      rw [planMessages]
      exact each_nothing
  | ⟨selector, arguments⟩ :: rest, returnless => by
      obtain ⟨ofArguments, ofRest⟩ := Bool.and_eq_true_iff.mp returnless
      rw [planMessages]
      have duplicated : (Plan.one (.bare (.bare .dup))).Each Op.Returnless :=
        each_one (Op.returnless_bare nofun)
      have dropped : (Plan.one (.bare (.bare .pop))).Each Op.Returnless :=
        each_one (Op.returnless_bare nofun)
      have sent : (Plan.one (.pooled .send (.string selector) (some arguments.length))).Each
          Op.Returnless := each_one (Op.returnless_scalar nofun rfl)
      exact each_ask fun _ _ => duplicated.followedBy <|
        (returnless_all surroundings arguments ofArguments).followedBy <|
          sent.followedBy <| dropped.followedBy (returnless_messages surroundings rest ofRest)

theorem returnless_entries (surroundings : Surroundings) : (entries : List Entry) →
    returnlessInEntries entries = true → (planEntries surroundings entries).Each Op.Returnless
  | [], _ => by
      rw [planEntries]
      exact each_nothing
  | ⟨key, value⟩ :: rest, returnless => by
      obtain ⟨ofEntry, ofRest⟩ := Bool.and_eq_true_iff.mp returnless
      obtain ⟨ofKey, ofValue⟩ := Bool.and_eq_true_iff.mp ofEntry
      rw [planEntries]
      exact (returnless_expr surroundings key ofKey).followedBy <|
        (returnless_expr surroundings value ofValue).followedBy
          (returnless_entries surroundings rest ofRest)

theorem returnless_statements (surroundings : Surroundings) (leading : Bool) :
    (statements : List Stmt) → returnlessInBody statements = true →
    (planStatements surroundings leading statements).Each Op.Returnless
  | [], _ => by
      rw [planStatements]
      cases leading with
      | true =>
          rintro _ ⟨⟩
          refine List.forall_mem_cons.mpr ⟨?_, List.forall_mem_singleton.mpr ?_⟩
          · cases surroundings.kind with
            | topLevel | method | block =>
                exact Op.returnless_bare nofun
          · exact Op.returnless_bare nofun
      | false =>
          exact each_nothing
  | .declare names :: rest, returnless => by
      rw [planStatements]
      cases leading with
      | true =>
          exact each_ask fun extended _ => returnless_statements extended true rest returnless
      | false =>
          exact each_throw _
  | .define definition :: rest, _ => by
      rw [planStatements]
      exact each_throw _
  | .expr value :: rest, returnless => by
      obtain ⟨ofValue, ofRest⟩ := Bool.and_eq_true_iff.mp returnless
      rw [planStatements]
      refine (returnless_expr surroundings value ofValue).followedBy <|
        Each.followedBy (each_one ?_) (returnless_statements surroundings false rest ofRest)
      cases rest.isEmpty with
      | true | false =>
          exact Op.returnless_bare nofun
  | .return _ :: _, returnless => by
      cases returnless

end

end Returnless

end Missive
