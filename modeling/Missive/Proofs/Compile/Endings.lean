import Missive.Proofs.Compile.Verdict

/-!
# How compilation ends

A program compiles, or an error is reported, or the compiler goes down.  An error is reported only
where the program is not well formed.  The compiler goes down only where a variable is used whose
slot does not fit into an operand, and then over the index of this operand.

Lowering is followed from its first check to its last instruction.  What has to be known on the way
is that the pool has room for all that the body still needs, provided that the program is well
formed.
-/

namespace Missive

/-- The error reports something about the program. -/
def CompileError.isReport : CompileError → Bool
  | .crash _ => false
  | .bareSuper | .superOutsideMethod | .superCascade | .emptyCascade | .classInBody _
  | .lateDeclaration _ | .invalidAssignment _ | .arityMismatch .. | .tooManyArguments ..
  | .unknownSuperclass .. | .duplicateField .. | .tooManyConstants | .blocksTooDeep => true

/-- Where the program stands in the session, a computation of the compiler answers something fine,
or it ends for one of the two reasons. -/
inductive Settled (session : Session) (program : Program) {α : Type} (fine : α → Prop) :
    Except CompileError α → Prop
  | answered {answer : α} : fine answer → Settled session program fine (.ok answer)
  | crashed : ¬ program.SlotsFit session →
      Settled session program fine (.error (.crash .indexTooLarge))
  | reported {error : CompileError} : error.isReport = true →
      ¬ Program.WellFormed session program → Settled session program fine (.error error)

/-- No literal stands twice in the pool of the unit, and if the program is well formed, there is
room in it for the demands. -/
structure CodeUnit.HasRoom (session : Session) (program : Program) (demands : List Demand)
    (unit : CodeUnit) : Prop where
  tight : unit.Tight
  room : Program.WellFormed session program → poolSize (unit.demands ++ demands) ≤ 2 ^ 23

/-- Lowering is settled wherever there is room for the demands, and it leaves room for any others
that there was room for besides. -/
def Lower.Uses (session : Session) (program : Program) (demands : List Demand) {α : Type}
    (lower : Lower α) : Prop :=
  ∀ unit others, CodeUnit.HasRoom session program (demands ++ others) unit →
    Settled session program (fun reached => CodeUnit.HasRoom session program others reached.2)
      (lower unit)

variable {session : Session} {program : Program}

theorem CodeUnit.hasRoom_empty {demands : List Demand}
    (room : Program.WellFormed session program → poolSize demands ≤ 2 ^ 23) :
    CodeUnit.empty.HasRoom session program demands :=
  ⟨tight_empty, room⟩

/-- Each body of a program begins with a pool that has room for all that the body needs. -/
theorem Program.HasBody.hasRoom {surroundings : Surroundings} {statements : List Stmt}
    (isBody : program.HasBody session surroundings statements) :
    CodeUnit.empty.HasRoom session program
      ((partsOfBody statements).flatMap (surroundings.within statements).demands ++ []) := by
  rw [List.append_nil]
  exact CodeUnit.hasRoom_empty fun wellFormed => wellFormed.poolsFit.2 _ _ isBody

namespace Settled

variable {α β : Type} {fine : α → Prop} {others : β → Prop} {x : Except CompileError α}

theorem mono {better : α → Prop} (settled : Settled session program fine x)
    (isBetter : ∀ answer, fine answer → better answer) : Settled session program better x := by
  cases settled with
  | answered isFine =>
      exact .answered (isBetter _ isFine)
  | crashed slotsMiss =>
      exact .crashed slotsMiss
  | reported isReport illFormed =>
      exact .reported isReport illFormed

theorem bind {next : α → Except CompileError β} (settled : Settled session program fine x)
    (nextSettled : ∀ answer, fine answer → Settled session program others (next answer)) :
    Settled session program others (x >>= next) := by
  cases settled with
  | answered isFine =>
      exact nextSettled _ isFine
  | crashed slotsMiss =>
      exact .crashed slotsMiss
  | reported isReport illFormed =>
      exact .reported isReport illFormed

theorem mapM {γ : Type} {f : γ → Except CompileError α} {items : List γ}
    (settled : ∀ item ∈ items, Settled session program (fun _ => True) (f item)) :
    Settled session program (fun _ => True) (items.mapM f) := by
  induction items with
  | nil =>
      exact .answered trivial
  | cons item rest inductionHypothesis =>
      obtain ⟨first, others⟩ := List.forall_mem_cons.mp settled
      rw [List.mapM_cons]
      exact first.bind fun _ _ => (inductionHypothesis others).bind fun _ _ => .answered trivial

end Settled

/-! ## Rules -/

namespace Lower.Uses

variable {α β : Type} {demands more : List Demand}

theorem nothing (answer : α) : Lower.Uses session program [] (pure answer) :=
  fun _ _ hasRoom => .answered hasRoom

theorem one (instruction : Instruction) :
    Lower.Uses session program [] (emit instruction) :=
  fun _ _ hasRoom => .answered ⟨⟨hasRoom.tight.size, hasRoom.tight.fits⟩, hasRoom.room⟩

theorem bind {lower : Lower α} {next : α → Lower β} (uses : lower.Uses session program demands)
    (nextUses : ∀ answer, (next answer).Uses session program more) :
    (lower >>= next).Uses session program (demands ++ more) := by
  intro unit others hasRoom
  rw [List.append_assoc] at hasRoom
  exact (uses unit _ hasRoom).bind fun reached => nextUses reached.1 reached.2 others

theorem congr {lower : Lower α} (uses : lower.Uses session program demands)
    (perm : demands.Perm more) : lower.Uses session program more := by
  intro unit others hasRoom
  refine uses unit others ⟨hasRoom.tight, fun wellFormed => ?_⟩
  rw [poolSize_of_perm ((perm.append_right others).append_left unit.demands)]
  exact hasRoom.room wellFormed

/-- What needs no place comes first. -/
theorem after {lower : Lower α} {next : α → Lower β} (uses : lower.Uses session program [])
    (nextUses : ∀ answer, (next answer).Uses session program demands) :
    (lower >>= next).Uses session program demands :=
  uses.bind nextUses

/-- What needs no place comes last. -/
theorem before {lower : Lower α} {next : α → Lower β} (uses : lower.Uses session program demands)
    (nextUses : ∀ answer, (next answer).Uses session program []) :
    (lower >>= next).Uses session program demands :=
  List.append_nil demands ▸ uses.bind nextUses

theorem refused {error : CompileError} (isReport : error.isReport = true)
    (illFormed : ¬ Program.WellFormed session program) :
    Lower.Uses session program demands (throw error : Lower α) :=
  fun _ _ _ => .reported isReport illFormed

theorem check {condition : Prop} [Decidable condition] {error : CompileError}
    {lower : Lower α} {f : β → Lower α} (isReport : error.isReport = true)
    (illFormed : condition → ¬ Program.WellFormed session program)
    (uses : ¬ condition → lower.Uses session program demands) :
    Lower.Uses session program demands (if condition then throw error >>= f else lower) := by
  by_cases holds : condition
  · rw [if_pos holds]
    exact fun _ _ _ => .reported isReport (illFormed holds)
  · rw [if_neg holds]
    exact uses holds

/-- A question that does not concern the unit. -/
theorem ask {fine : β → Prop} {question : Except CompileError β} {next : β → Lower α}
    (settled : Settled session program fine question)
    (uses : ∀ answer, fine answer → (next answer).Uses session program demands) :
    Lower.Uses session program demands (do next (← liftM question)) := by
  intro unit others hasRoom
  cases settled with
  | answered isFine =>
      exact uses _ isFine unit others hasRoom
  | crashed slotsMiss =>
      exact .crashed slotsMiss
  | reported isReport illFormed =>
      exact .reported isReport illFormed

/-- A constant and the instruction that refers to it. -/
theorem pooled (opcode : Opcode) (constant : Constant) (count : Option Nat)
    (countFits : Op.CountFits count) :
    Lower.Uses session program [constant.demand] (Op.pooled opcode constant count).add := by
  intro unit others hasRoom
  have tight := hasRoom.tight
  have added : ∀ {index between}, addConstant constant unit = .ok (index, between) →
      (Op.pooled opcode constant count).add unit =
        .ok ((), between.add (Op.placed opcode index count)) := fun constantAdded =>
    (Op.add_pooled_eq_ok tight.fits).mpr ⟨countFits, _, _, constantAdded, rfl⟩
  cases tight.addConstant constant with
  | shares constantAdded _ _ =>
      rw [added constantAdded]
      refine .answered ⟨⟨tight.size, tight.fits⟩, fun wellFormed => ?_⟩
      refine Nat.le_trans ?_ (hasRoom.room wellFormed)
      refine Nat.le_trans (poolSize_le_cons constant.demand (unit.demands ++ others)) ?_
      exact Nat.le_of_eq (poolSize_of_perm List.perm_middle.symm)
  | @adds index grown constantAdded demands grownTight =>
      rw [added constantAdded]
      refine .answered ⟨⟨grownTight.size, grownTight.fits⟩, fun wellFormed => ?_⟩
      change poolSize (grown.demands ++ others) ≤ _
      rw [demands, List.append_assoc]
      exact hasRoom.room wellFormed
  | full failed tooMany =>
      have alsoFailed : (Op.pooled opcode constant count).add unit = .error .tooManyConstants := by
        change (addConstant constant unit >>= _) = _
        rw [failed]
        rfl
      rw [alsoFailed]
      refine .reported rfl fun wellFormed => Nat.not_le_of_lt tooMany ?_
      refine Nat.le_trans ?_ (hasRoom.room wellFormed)
      refine Nat.le_trans (poolSize_le_append (constant.demand :: unit.demands) others) ?_
      exact Nat.le_of_eq (poolSize_of_perm List.perm_middle.symm)

theorem indexed (opcode : Opcode) (constant : Constant) :
    Lower.Uses session program [constant.demand]
      (do emit (.indexed opcode (← addConstant constant))) :=
  pooled opcode constant none nofun

theorem counted (opcode : Opcode) (constant : Constant) {count : Nat}
    (few : count ≤ Instruction.maxPackedCount) :
    Lower.Uses session program [constant.demand]
      (do emitPacked opcode (← addConstant constant) count) :=
  pooled opcode constant (some count) fun _ isCount => Option.some.inj isCount ▸ few

end Lower.Uses

/-! ## Variables and arities -/

section Questions

variable {surroundings : Surroundings} {part : Expr} {name : String}

theorem settled_arity {selector : Selector} {given : Nat}
    (takes : Program.WellFormed session program → selector.Takes given) :
    Settled session program (fun _ => given ≤ Instruction.maxPackedCount)
      (checkArity selector given) := by
  have refused : ∀ {error}, checkArity selector given = .error error →
      ¬ Program.WellFormed session program := by
    intro error failed wellFormed
    rw [checkArity_eq_ok_iff.mpr (takes wellFormed)] at failed
    cases failed
  cases checked : checkArity selector given with
  | ok _ =>
      exact .answered (checkArity_ok checked).1
  | error error =>
      refine .reported ?_ (refused checked)
      unfold checkArity at checked
      split at checked
      · cases checked
        rfl
      · split at checked
        · cases checked
          rfl
        · cases checked

theorem settled_resolve (occurs : program.Occurs session surroundings part)
    (isVariable : part.variableName? = some name) :
    Settled session program (fun location => surroundings.resolve name = .ok location)
      (surroundings.resolve name) := by
  cases resolved : surroundings.resolve name with
  | ok location =>
      exact .answered rfl
  | error error =>
      refine .reported ?_ fun wellFormed => ?_
      · unfold Surroundings.resolve at resolved
        split at resolved
        · cases resolved
        · split at resolved
          · cases resolved
            rfl
          · cases resolved
        · split at resolved <;> cases resolved
      · obtain ⟨location, isLocation⟩ := surroundings.resolve_isOk_iff.mpr
          (wellFormed.variablesNear surroundings part occurs name isVariable)
        rw [resolved] at isLocation
        cases isLocation

/-- The operand has room for the slot of a variable further out, or the compiler goes down. -/
theorem uses_outer (occurs : program.Occurs session surroundings part)
    (isVariable : part.variableName? = some name) {slot depth : Nat}
    (resolved : surroundings.resolve name = .ok (.outer slot depth)) (opcode : Opcode) :
    Lower.Uses session program [] (emitPacked opcode slot depth) := by
  obtain ⟨found, positive, near⟩ := Surroundings.resolve_eq_outer_iff.mp resolved
  obtain ⟨further, rfl⟩ := Nat.exists_eq_succ_of_ne_zero (Nat.ne_of_gt positive)
  unfold emitPacked Instruction.pack
  rw [if_neg (Nat.not_lt.mpr near)]
  by_cases large : Instruction.maxPackedIndex < slot
  · rw [if_pos large]
    refine fun _ _ _ => .crashed fun slotsFit => Nat.not_le_of_lt large ?_
    exact Nat.le_of_lt_succ (slotsFit surroundings part occurs name isVariable slot further found)
  · rw [if_neg large]
    exact .one _

theorem uses_access (occurs : program.Occurs session surroundings part)
    (isVariable : part.variableName? = some name) (access : Access) :
    Lower.Uses session program (surroundings.nameDemands name)
      (lowerAccess surroundings access name) := by
  refine .ask (settled_resolve occurs isVariable) fun location resolved => ?_
  unfold Surroundings.nameDemands
  rw [resolved]
  cases location with
  | slot _ | field _ =>
      exact .one _
  | outer slot depth =>
      exact uses_outer occurs isVariable resolved _
  | classVar | global =>
      exact .indexed _ (.string name)

theorem uses_literal (value : Literal) :
    Lower.Uses session program (surroundings.demands (.literal value)) (lowerLiteral value) := by
  cases value with
  | bool value =>
      cases value with
      | true | false =>
          exact .one _
  | nil =>
      exact .one _
  | int value =>
      exact .indexed _ (.int value)
  | float value =>
      exact .indexed _ (.float value)
  | string text | symbol text =>
      exact .indexed _ (.string text)

theorem uses_name (occurs : program.Occurs session surroundings (.var name)) :
    Lower.Uses session program (surroundings.demands (.var name))
      (lowerName surroundings name) := by
  have pseudo : ∀ instruction, isPseudoVariable name = true →
      Lower.Uses session program (surroundings.demands (.var name)) (emit instruction) := by
    intro instruction isPseudo
    rw [Surroundings.demands, if_pos isPseudo]
    exact .one instruction
  unfold lowerName
  by_cases isSelf : name = "self"
  · rw [if_pos isSelf]
    exact pseudo _ (by simp [isSelf, isPseudoVariable])
  rw [if_neg isSelf]
  by_cases isSuper : name = "super"
  · rw [if_pos isSuper]
    refine .refused rfl fun wellFormed => ?_
    cases isSuper
    cases wellFormed.superReceives surroundings _ occurs
  rw [if_neg isSuper]
  by_cases isNil : name = "nil"
  · rw [if_pos isNil]
    exact pseudo _ (by simp [isNil, isPseudoVariable])
  rw [if_neg isNil]
  by_cases isTrue : name = "true"
  · rw [if_pos isTrue]
    exact pseudo _ (by simp [isTrue, isPseudoVariable])
  rw [if_neg isTrue]
  by_cases isFalse : name = "false"
  · rw [if_pos isFalse]
    exact pseudo _ (by simp [isFalse, isPseudoVariable])
  rw [if_neg isFalse]
  have notPseudo : isPseudoVariable name = false := by
    simp [isPseudoVariable, isSelf, isSuper, isNil, isTrue, isFalse]
  have isVariable : (Expr.var name).variableName? = some name := by
    rw [Expr.variableName?, notPseudo]
    rfl
  rw [Surroundings.demands, notPseudo]
  exact uses_access occurs isVariable .load

end Questions

/-! ## Expressions and bodies -/

/-- The surroundings in which the expressions of statements stand, where these are the first ones of
a body or not. -/
def Surroundings.seenFrom (surroundings : Surroundings) (leading : Bool) (statements : List Stmt) :
    Surroundings :=
  if leading then surroundings.within statements else surroundings

/-- The statements are the last ones of a body of the program. -/
structure Lodged (session : Session) (program : Program) (surroundings : Surroundings)
    (leading : Bool) (statements : List Stmt) : Prop where
  occur : ∀ part ∈ partsOfBody statements,
    program.Occurs session (surroundings.seenFrom leading statements) part
  plain : Program.WellFormed session program → ∀ statement ∈
    (if leading then afterDeclarations statements else statements), statement.isPlain = true
  declarable : Program.WellFormed session program → leading = true →
    ∀ name ∈ declaredFirst statements, isPseudoVariable name = false

namespace Lodged

variable {surroundings : Surroundings} {leading : Bool} {statements rest : List Stmt} {first : Stmt}

theorem of_hasBody (isBody : program.HasBody session surroundings statements) :
    Lodged session program surroundings true statements where
  occur _ isPart := .inBody isBody isPart
  plain wellFormed := (plain_iff statements).mpr
    ⟨wellFormed.classesAtTop surroundings statements isBody,
      wellFormed.declarationsLead.2 surroundings statements isBody⟩
  declarable wellFormed _ :=
    (wellFormed.declarationsLead.2 surroundings statements isBody).forall_declared_iff.mpr
      (wellFormed.namesDeclarable.2 surroundings statements isBody)

theorem seenFrom_plain (isPlain : first.isPlain = true) (rest : List Stmt) :
    surroundings.seenFrom leading (first :: rest) = surroundings := by
  cases leading with
  | false =>
      rfl
  | true =>
      cases first with
      | expr _ | «return» _ =>
          exact surroundings.declareNames_nil
      | declare _ | define _ =>
          cases isPlain

/-- Where a body starts with an expression or a return, its names are there already. -/
theorem afterPlain (lodged : Lodged session program surroundings leading (first :: rest))
    (isPlain : first.isPlain = true) :
    (∀ part ∈ first.parts, program.Occurs session surroundings part) ∧
      Lodged session program surroundings false rest := by
  have occur := lodged.occur
  rw [seenFrom_plain isPlain] at occur
  have all : (if leading then afterDeclarations (first :: rest) else first :: rest) =
      first :: rest := by
    cases first with
    | expr _ | «return» _ =>
        exact ite_self _
    | declare _ | define _ =>
        cases isPlain
  have plain := lodged.plain
  rw [all] at plain
  refine ⟨fun part isPart => occur part (List.mem_append_left _ isPart), ?_, ?_, nofun⟩
  · exact fun part isPart => occur part (List.mem_append_right _ isPart)
  · exact fun wellFormed => (List.forall_mem_cons.mp (plain wellFormed)).2

theorem afterDeclare {names : List String}
    (lodged : Lodged session program surroundings true (.declare names :: rest)) :
    Lodged session program (surroundings.declareNames names) true rest where
  occur part isPart := by
    have occurs := lodged.occur part isPart
    unfold Surroundings.seenFrom at occurs ⊢
    rw [if_pos rfl] at occurs ⊢
    exact surroundings.within_declare names rest ▸ occurs
  plain := lodged.plain
  declarable wellFormed isLeading name isName :=
    lodged.declarable wellFormed isLeading name (List.mem_append_right _ isName)

end Lodged

theorem settled_declareAll {surroundings : Surroundings} {names : List String}
    (declarable : Program.WellFormed session program →
      ∀ name ∈ names, isPseudoVariable name = false) :
    Settled session program (fun extended => surroundings.declareNames names = extended)
      (surroundings.declareAll names) := by
  induction names generalizing surroundings with
  | nil =>
      exact .answered surroundings.declareNames_nil
  | cons name rest inductionHypothesis =>
      have oneByOne : surroundings.declareNames (name :: rest) =
          (surroundings.declareNames [name]).declareNames rest :=
        surroundings.declareNames_append [name] rest
      rw [Surroundings.declareAll, surroundings.declare_eq, oneByOne]
      cases isPseudo : isPseudoVariable name with
      | true =>
          refine .reported rfl fun wellFormed => ?_
          rw [declarable wellFormed name List.mem_cons_self] at isPseudo
          cases isPseudo
      | false =>
          exact inductionHypothesis fun wellFormed other member =>
            declarable wellFormed other (List.mem_cons_of_mem _ member)

theorem uses_afterStatement (isLast : Bool) :
    Lower.Uses session program [] (emitAfterStatement isLast) := .one _

theorem uses_emptyBody (kind : BodyKind) :
    Lower.Uses session program [] (emitEmptyBody kind) := by
  cases kind with
  | topLevel | method | block =>
      exact .after (.one _) fun _ => .one _

mutual

theorem uses_expr (surroundings : Surroundings) : (expr : Expr) →
    (∀ part ∈ expr.parts, program.Occurs session surroundings part) →
    Lower.Uses session program (expr.parts.flatMap surroundings.demands)
      (lowerExpr surroundings expr)
  | .literal value, _ => by
      rw [lowerExpr, Expr.parts, List.flatMap_singleton]
      exact uses_literal value
  | .var name, occur => by
      rw [lowerExpr, Expr.parts, List.flatMap_singleton]
      exact uses_name (occur _ List.mem_cons_self)
  | .self, _ => by
      rw [lowerExpr]
      exact .one _
  | .super, occur => by
      rw [lowerExpr]
      refine .refused rfl fun wellFormed => ?_
      cases wellFormed.superReceives surroundings .super (occur _ List.mem_cons_self)
  | .assign target value, occur => by
      obtain ⟨occurs, inValue⟩ := List.forall_mem_cons.mp occur
      rw [lowerExpr, Expr.parts, List.flatMap_cons]
      refine .check rfl (fun isPseudo wellFormed => ?_) fun _ => ?_
      · rw [wellFormed.targetsAssignable surroundings target value occurs] at isPseudo
        cases isPseudo
      · exact (Lower.Uses.bind (uses_expr surroundings value inValue) fun _ =>
          uses_access occurs rfl .store).congr List.perm_append_comm
  | .send receiver selector arguments, occur => by
      rw [Expr.parts] at occur ⊢
      obtain ⟨occurs, inside⟩ := List.forall_mem_cons.mp occur
      obtain ⟨inReceiver, inArguments⟩ := List.forall_mem_append.mp inside
      rw [lowerExpr, List.flatMap_cons, List.flatMap_append]
      refine .ask (settled_arity fun wellFormed =>
        wellFormed.sendsFit surroundings receiver selector arguments occurs) fun _ few => ?_
      have sent := fun opcode => Lower.Uses.bind (uses_exprs surroundings arguments inArguments)
        fun _ => Lower.Uses.counted opcode (.string selector) few
      have order : ∀ {first second last : List Demand},
          (first ++ (second ++ last)).Perm (last ++ (first ++ second)) := fun {first second last} =>
        List.append_assoc first second last ▸ List.perm_append_comm
      refine Lower.Uses.congr ?_ order
      by_cases isSuper : receiver.isSuper
      · simp only [isSuper, if_true]
        refine .check rfl (fun noOwner wellFormed => ?_) fun _ =>
          .after (.one (.bare .pushSelf)) fun _ => sent .superSend
        have hasOwner := wellFormed.superInMethods surroundings receiver selector arguments
          occurs isSuper
        rw [← Option.not_isNone, noOwner] at hasOwner
        cases hasOwner
      · simp only [isSuper] at inReceiver ⊢
        exact .bind (uses_expr surroundings receiver inReceiver) fun _ => sent .send
  | .cascade receiver messages, occur => by
      rw [Expr.parts] at occur ⊢
      obtain ⟨occurs, inside⟩ := List.forall_mem_cons.mp occur
      obtain ⟨inReceiver, inMessages⟩ := List.forall_mem_append.mp inside
      rw [lowerExpr, List.flatMap_cons, List.flatMap_append]
      refine .check rfl (fun isEmpty wellFormed => ?_) fun _ => ?_
      · exact wellFormed.cascadesNotEmpty surroundings receiver messages occurs
          (List.isEmpty_iff.mp isEmpty)
      refine .check rfl (fun isSuper wellFormed => ?_) fun _ => ?_
      · rw [wellFormed.superReceives surroundings receiver
          (inReceiver receiver receiver.mem_parts)] at isSuper
        cases isSuper
      refine (Lower.Uses.bind (uses_expr surroundings receiver inReceiver) fun _ =>
        uses_messages surroundings messages inMessages fun wellFormed =>
          wellFormed.messagesFit surroundings receiver messages occurs).congr ?_
      rw [← List.append_assoc, ← List.append_assoc]
      exact List.perm_append_comm.append_right _
  | .block parameters body, occur => by
      have occurs := occur _ List.mem_cons_self
      have isBody := occurs.hasBody
      have settled : Settled session program (fun _ => True)
          (lowerStatements (surroundings.inBlock parameters) true body .empty) :=
        (uses_statements (surroundings.inBlock parameters) true body (.of_hasBody isBody)
          .empty [] isBody.hasRoom).mono fun _ _ => trivial
      rw [lowerExpr, Expr.parts, List.flatMap_singleton]
      refine .check rfl (fun many wellFormed => ?_) fun few => ?_
      · exact Nat.not_le_of_lt many (wellFormed.parametersFit surroundings parameters body occurs)
      · exact .ask settled fun reached _ =>
          .counted .makeClosure (.block reached.2) (Nat.le_of_not_lt few)
  | .array elements, occur => by
      obtain ⟨_, inElements⟩ := List.forall_mem_cons.mp occur
      rw [lowerExpr, Expr.parts, List.flatMap_cons]
      exact .before (uses_exprs surroundings elements inElements) fun _ => .one _
  | .dictionary entries, occur => by
      obtain ⟨_, inEntries⟩ := List.forall_mem_cons.mp occur
      rw [lowerExpr, Expr.parts, List.flatMap_cons]
      exact .before (uses_entries surroundings entries inEntries) fun _ => .one _

theorem uses_exprs (surroundings : Surroundings) : (exprs : List Expr) →
    (∀ part ∈ partsOfAll exprs, program.Occurs session surroundings part) →
    Lower.Uses session program ((partsOfAll exprs).flatMap surroundings.demands)
      (lowerExprs surroundings exprs)
  | [], _ => by
      rw [lowerExprs]
      exact .nothing _
  | expr :: rest, occur => by
      obtain ⟨inFirst, inRest⟩ := List.forall_mem_append.mp occur
      rw [lowerExprs, partsOfAll, List.flatMap_append]
      exact .bind (uses_expr surroundings expr inFirst) fun _ =>
        uses_exprs surroundings rest inRest

theorem uses_messages (surroundings : Surroundings) : (messages : List Message) →
    (∀ part ∈ partsOfMessages messages, program.Occurs session surroundings part) →
    (Program.WellFormed session program → ∀ message ∈ messages,
      Selector.Takes message.selector message.arguments.length) →
    Lower.Uses session program
      (messages.map (fun message => .literal (.string message.selector)) ++
        (partsOfMessages messages).flatMap surroundings.demands)
      (lowerMessages surroundings messages)
  | [], _, _ => by
      rw [lowerMessages]
      exact .nothing _
  | ⟨selector, arguments⟩ :: rest, occur, fit => by
      obtain ⟨inArguments, inRest⟩ := List.forall_mem_append.mp occur
      rw [lowerMessages, partsOfMessages, List.flatMap_append, List.map_cons]
      have others := uses_messages surroundings rest inRest fun wellFormed message member =>
        fit wellFormed message (List.mem_cons_of_mem _ member)
      refine .ask (settled_arity fun wellFormed => fit wellFormed _ List.mem_cons_self)
        fun _ few => ?_
      have sent := Lower.Uses.bind (Lower.Uses.counted .send (.string selector) few) fun _ =>
        Lower.Uses.after (.one (.bare .pop)) fun _ => others
      simp only [bind_assoc] at sent
      refine Lower.Uses.congr (.after (.one (.bare .dup)) fun _ =>
        .bind (uses_exprs surroundings arguments inArguments) fun _ => sent) ?_
      refine List.perm_iff_count.mpr fun demand => ?_
      simp only [List.count_append, List.cons_append, List.count_cons, List.count_nil,
        Constant.demand]
      omega

theorem uses_entries (surroundings : Surroundings) : (entries : List Entry) →
    (∀ part ∈ partsOfEntries entries, program.Occurs session surroundings part) →
    Lower.Uses session program ((partsOfEntries entries).flatMap surroundings.demands)
      (lowerEntries surroundings entries)
  | [], _ => by
      rw [lowerEntries]
      exact .nothing _
  | ⟨key, value⟩ :: rest, occur => by
      rw [partsOfEntries, List.append_assoc] at occur ⊢
      obtain ⟨inKey, occur⟩ := List.forall_mem_append.mp occur
      obtain ⟨inValue, inRest⟩ := List.forall_mem_append.mp occur
      rw [lowerEntries, List.flatMap_append, List.flatMap_append]
      exact .bind (uses_expr surroundings key inKey) fun _ =>
        .bind (uses_expr surroundings value inValue) fun _ =>
          uses_entries surroundings rest inRest

theorem uses_statements (surroundings : Surroundings) (leading : Bool) :
    (statements : List Stmt) → Lodged session program surroundings leading statements →
    Lower.Uses session program
      ((partsOfBody statements).flatMap (surroundings.seenFrom leading statements).demands)
      (lowerStatements surroundings leading statements)
  | [], _ => by
      rw [lowerStatements]
      cases leading with
      | true =>
          exact uses_emptyBody _
      | false =>
          exact .nothing _
  | .declare names :: rest, lodged => by
      rw [lowerStatements]
      cases leading with
      | true =>
          refine .ask (settled_declareAll fun wellFormed name isName =>
            lodged.declarable wellFormed rfl name (List.mem_append_left _ isName)) ?_
          rintro _ rfl
          have seen : surroundings.seenFrom true (.declare names :: rest) =
              (surroundings.declareNames names).seenFrom true rest :=
            surroundings.within_declare names rest
          rw [seen]
          exact uses_statements (surroundings.declareNames names) true rest lodged.afterDeclare
      | false =>
          refine .refused rfl fun wellFormed => ?_
          cases lodged.plain wellFormed _ List.mem_cons_self
  | .define definition :: rest, lodged => by
      rw [lowerStatements]
      refine .refused rfl fun wellFormed => ?_
      have plain := lodged.plain wellFormed
      cases leading with
      | true | false =>
          cases plain _ List.mem_cons_self
  | .expr value :: rest, lodged => by
      obtain ⟨inValue, restLodged⟩ := lodged.afterPlain rfl
      rw [lowerStatements, Lodged.seenFrom_plain rfl]
      have after := Lower.Uses.bind (uses_expr surroundings value inValue) fun _ =>
        .after (uses_afterStatement rest.isEmpty) fun _ =>
          uses_statements surroundings false rest restLodged
      exact after.congr (.of_eq List.flatMap_append.symm)
  | .return value :: rest, lodged => by
      obtain ⟨inValue, restLodged⟩ := lodged.afterPlain rfl
      rw [lowerStatements, Lodged.seenFrom_plain rfl]
      have after := Lower.Uses.bind (uses_expr surroundings value inValue) fun _ =>
        .after (.one (.bare (returnOpcode surroundings.kind))) fun _ =>
          uses_statements surroundings false rest restLodged
      exact after.congr (.of_eq List.flatMap_append.symm)

end

/-! ## Classes and programs -/

theorem isReport_of_extendFields {className : String} {fields added : List String}
    {error : CompileError} (failed : extendFields className fields added = .error error) :
    error.isReport = true := by
  induction added generalizing fields with
  | nil =>
      cases failed
  | cons field rest inductionHypothesis =>
      rw [extendFields] at failed
      split at failed
      · cases failed
        rfl
      · exact inductionHypothesis failed

theorem isReport_of_shapeOf {session : Session} {definition : ClassDef} {error : CompileError}
    (failed : shapeOf session definition = .error error) : error.isReport = true := by
  have fromFields : ∀ {inherited : List String}, (do
      let fields ← extendFields definition.name inherited definition.fields
      return ⟨definition.superclass, fields, definition.classVars⟩ : Except CompileError Shape) =
        .error error → error.isReport = true := by
    intro inherited failed
    cases extended : extendFields definition.name inherited definition.fields with
    | ok fields =>
        rw [extended] at failed
        cases failed
    | error _ =>
        rw [extended] at failed
        cases failed
        exact isReport_of_extendFields extended
  unfold shapeOf at failed
  split at failed
  · exact fromFields failed
  · split at failed
    · exact fromFields failed
    · cases failed
      rfl

section Classes

variable {definition : ClassDef} {earlier later : Program}

theorem settled_method (isWhole : program = earlier ++ .define definition :: later)
    (classSide : Bool) {method : MethodDef} (isMethod : method ∈ definition.methodsOn classSide) :
    Settled session program (fun _ => True)
      (lowerMethod ((session.pastAll earlier).past (.define definition))
        ⟨definition.name, ((session.pastAll earlier).shapeFor definition).fields, classSide⟩
        method) := by
  have isBody := @Program.HasBody.method session _ _ _ _ _ _ isWhole isMethod
  have isDefined : .define definition ∈ program := by
    rw [isWhole]
    simp
  refine (settled_arity fun wellFormed =>
    wellFormed.methodsFit definition isDefined classSide method isMethod).bind fun _ _ => ?_
  exact (uses_statements _ true method.body (.of_hasBody isBody) .empty [] isBody.hasRoom).bind
    fun _ _ => .answered trivial

theorem settled_shape (isWhole : program = earlier ++ .define definition :: later) :
    Settled session program (fun shape => (session.pastAll earlier).shapeFor definition = shape)
      (shapeOf (session.pastAll earlier) definition) := by
  cases isShape : shapeOf (session.pastAll earlier) definition with
  | ok shape =>
      exact .answered (Session.shapeOf_eq_ok_iff.mp isShape).2
  | error error =>
      refine .reported (isReport_of_shapeOf isShape) fun wellFormed => ?_
      · obtain ⟨distinct, new⟩ := wellFormed.fieldsDistinct earlier definition later isWhole
        have known := wellFormed.superclassesKnown earlier definition later isWhole
        rw [Session.shapeOf_eq_ok_iff.mpr ⟨⟨fun superclass isSuperclass =>
          Session.isSome_shape?_pastAll_iff.mpr (known superclass isSuperclass), distinct, new⟩,
          rfl⟩] at isShape
        cases isShape

theorem settled_class (isWhole : program = earlier ++ .define definition :: later) :
    Settled session program (fun _ => True)
      (lowerClass (session.pastAll earlier) definition).2 := by
  have shaped : Settled session program _ _ := settled_shape isWhole
  unfold lowerClass
  cases isShape : shapeOf (session.pastAll earlier) definition with
  | error error =>
      rw [isShape] at shaped
      cases shaped with
      | crashed slotsMiss =>
          exact .crashed slotsMiss
      | reported isReport illFormed =>
          exact .reported isReport illFormed
  | ok shape =>
      obtain ⟨_, rfl⟩ := Session.shapeOf_eq_ok_iff.mp isShape
      refine Settled.bind (.mapM fun method isMethod => ?_) fun _ _ =>
        .bind (.mapM fun method isMethod => ?_) fun _ _ => .answered trivial
      · exact settled_method isWhole false isMethod
      · exact settled_method isWhole true isMethod

end Classes

theorem settled_declareAllAtTop {session start : Session} {names : List String}
    (declarable : Program.WellFormed session program →
      ∀ name ∈ names, isPseudoVariable name = false) :
    Settled session program (fun _ => True) (start.declareAll names).2 := by
  induction names generalizing start with
  | nil =>
      exact .answered trivial
  | cons name rest inductionHypothesis =>
      rw [Session.declareAll]
      cases isPseudo : isPseudoVariable name with
      | true =>
          refine .reported rfl fun wellFormed => ?_
          rw [declarable wellFormed name List.mem_cons_self] at isPseudo
          cases isPseudo
      | false =>
          exact inductionHypothesis fun wellFormed other member =>
            declarable wellFormed other (List.mem_cons_of_mem _ member)

theorem Session.pastAll_append_singleton (session : Session) (earlier : Program)
    (statement : Stmt) :
    session.pastAll (earlier ++ [statement]) = (session.pastAll earlier).past statement :=
  List.foldl_append

/-- The value of a statement and the instruction after it. -/
theorem uses_statement {earlier later : Program} {statement : Stmt} {value : Expr}
    (isWhole : program = earlier ++ statement :: later) (isParts : statement.parts = value.parts)
    (instruction : Instruction) :
    Lower.Uses session program (value.parts.flatMap (session.pastAll earlier).topLevel.demands)
      (do lowerExpr (session.pastAll earlier).topLevel value; emit instruction) :=
  .before (uses_expr _ value fun _ isPart => .atTop isWhole (isParts ▸ isPart))
    fun _ => .one instruction

/-- Where a statement has failed, so has the program. -/
theorem Settled.proceed {fine : CodeUnit → Prop} {outcome : Except CompileError (Unit × CodeUnit)}
    (settled : Settled session program (fun reached => fine reached.2) outcome) {reached : Session}
    {next : CodeUnit → Session × Except CompileError CodeUnit}
    (nextSettled : ∀ unit, fine unit → Settled session program (fun _ => True) (next unit).2) :
    Settled session program (fun _ => True)
      (match outcome with
        | .ok (_, unit) => next unit
        | .error error => (reached, .error error)).2 := by
  cases settled with
  | answered isFine =>
      exact nextSettled _ isFine
  | crashed slotsMiss =>
      exact .crashed slotsMiss
  | reported isReport illFormed =>
      exact .reported isReport illFormed

/-- The last statements of a program are compiled after the others.  A declaration among them comes
late if something else stands in front of it. -/
theorem settled_program (leading : Bool) {earlier rest : Program}
    (isWhole : program = earlier ++ rest)
    (late : leading = false → ∃ statement ∈ earlier, ∀ names, statement ≠ .declare names)
    {unit : CodeUnit}
    (hasRoom : unit.HasRoom session program (Program.demands (session.pastAll earlier) rest)) :
    Settled session program (fun _ => True)
      (lowerProgramFrom leading (session.pastAll earlier) unit rest).2 := by
  induction rest generalizing leading earlier unit with
  | nil =>
      rw [lowerProgramFrom]
      cases leading with
      | true =>
          exact ((uses_emptyBody .topLevel) unit [] hasRoom).bind fun _ _ => .answered trivial
      | false =>
          exact .answered trivial
  | cons statement rest inductionHypothesis =>
      have isNext : program = (earlier ++ [statement]) ++ rest := by
        rw [isWhole, List.append_assoc]
        rfl
      have next := fun leading => @inductionHypothesis leading (earlier ++ [statement])
      rw [Session.pastAll_append_singleton] at next
      have isHere : statement ∈ earlier ++ [statement] := by simp
      cases statement with
      | declare names =>
          rw [lowerProgramFrom]
          cases leading with
          | false =>
              refine .reported rfl fun wellFormed => ?_
              obtain ⟨other, isEarlier, isOther⟩ := late rfl
              obtain ⟨names, isDeclare⟩ :=
                wellFormed.declarationsLead.1 earlier names rest isWhole other isEarlier
              exact isOther names isDeclare
          | true =>
              have settled : Settled session program (fun _ => True)
                  ((session.pastAll earlier).declareAll names).2 :=
                settled_declareAllAtTop fun wellFormed =>
                  wellFormed.namesDeclarable.1 names (isWhole ▸ by simp)
              rcases declared : (session.pastAll earlier).declareAll names with
                ⟨extended, error | ⟨⟩⟩
              · rw [declared] at settled
                cases settled with
                | crashed slotsMiss =>
                    exact .crashed slotsMiss
                | reported isReport illFormed =>
                    exact .reported isReport illFormed
              · obtain ⟨_, rfl⟩ := Session.declareAll_eq_ok_iff.mp declared
                exact next true isNext (fun isLate => by cases isLate) hasRoom
      | define definition =>
          have other : ∀ names, Stmt.define definition ≠ .declare names := fun _ same => by
            cases same
          have settled : Settled session program _ _ := settled_class isWhole
          rw [lowerProgramFrom]
          rcases lowered : lowerClass (session.pastAll earlier) definition with
            ⟨extended, error | descriptor⟩
          · rw [lowered] at settled
            cases settled with
            | crashed slotsMiss =>
                exact .crashed slotsMiss
            | reported isReport illFormed =>
                exact .reported isReport illFormed
          · obtain ⟨_, rfl⟩ := Session.lowerClass_isOk_iff.mp ⟨descriptor, lowered⟩
            have uses : Lower.Uses session program [.own]
                (do emitClass descriptor; emitAfterStatement rest.isEmpty) :=
              .before (.indexed .defineClass (.classDescriptor descriptor)) fun _ => .one _
            exact (uses unit _ hasRoom).proceed fun grown hasRoom =>
              next false isNext (fun _ => ⟨_, isHere, other⟩) hasRoom
      | expr value =>
          have other : ∀ names, Stmt.expr value ≠ .declare names := fun _ same => by
            cases same
          rw [lowerProgramFrom]
          exact (uses_statement isWhole rfl _ unit _ hasRoom).proceed fun grown hasRoom =>
            next false isNext (fun _ => ⟨_, isHere, other⟩) hasRoom
      | «return» value =>
          have other : ∀ names, Stmt.return value ≠ .declare names := fun _ same => by
            cases same
          rw [lowerProgramFrom]
          exact (uses_statement isWhole rfl _ unit _ hasRoom).proceed fun grown hasRoom =>
            next false isNext (fun _ => ⟨_, isHere, other⟩) hasRoom

/-- An error is reported only where the program is not well formed, and the compiler goes down only
over the slot of a variable. -/
theorem Session.settled_compile (session : Session) (program : Program) :
    Settled session program (fun _ => True) (session.compile program).2 := by
  have room : CodeUnit.empty.HasRoom session program (Program.demands session program) :=
    CodeUnit.hasRoom_empty fun wellFormed => wellFormed.poolsFit.1
  have isWhole : program = [] ++ program := rfl
  have settled := settled_program true isWhole nofun room
  unfold compile lower
  change Settled session program _ (lowerProgramFrom true session .empty program).2 at settled
  rcases lowered : lowerProgramFrom true session .empty program with ⟨extended, error | unit⟩
  · rw [lowered] at settled
    exact settled
  · exact .answered trivial

/-- The compiler goes down over an index only, and only where a slot does not fit. -/
theorem Session.crash_of_compile {session final : Session} {program : Program} {cause : Crash}
    (crashed : session.compile program = (final, .error (.crash cause))) :
    cause = .indexTooLarge ∧ ¬ program.SlotsFit session := by
  have settled := session.settled_compile program
  rw [crashed] at settled
  cases settled with
  | crashed slotsMiss =>
      exact ⟨rfl, slotsMiss⟩
  | reported isReport _ =>
      cases isReport

/-- A program compiles in a session if and only if it is well formed there and its slots fit.  A
well-formed program whose slots do not fit brings the compiler down, and nothing else does but a
slot that does not fit. -/
theorem Session.compiles_iff_wellFormed (session : Session) (program : Program) :
    ((∃ final unit, session.compile program = (final, .ok unit)) ↔
      Program.WellFormed session program ∧ program.SlotsFit session) ∧
    (Program.WellFormed session program → ¬ program.SlotsFit session →
      session.compile program = (session, .error (.crash .indexTooLarge))) ∧
    ∀ final cause, session.compile program = (final, .error (.crash cause)) →
      cause = .indexTooLarge ∧ ¬ program.SlotsFit session := by
  refine ⟨session.exists_unit_iff program, fun wellFormed slotsMiss => ?_,
    fun _ _ => Session.crash_of_compile⟩
  have settled := session.settled_compile program
  rcases compiled : session.compile program with ⟨final, error | unit⟩
  · rw [compiled] at settled
    cases settled with
    | crashed _ =>
        rw [Session.eq_of_compile_error compiled]
    | reported _ illFormed =>
        exact (illFormed wellFormed).elim
  · exact (slotsMiss ((session.exists_unit_iff program).mp ⟨final, unit, compiled⟩).2).elim

end Missive
