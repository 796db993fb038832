import Missive.Proofs.Classes.Definitions
import Missive.Proofs.Compile.Plan
import Missive.Proofs.Scopes.Passages

/-!
# The code of a passage

The code of a passage has one marked instruction for each thing that the passage mentions.  For a
local variable the instruction holds where the name is found: the slot, and how many passages
further out.  For a block it holds the code of the block, which was made with the same passages
around it.

So from the code alone one can tell which passages enclose it, and the code of a block tells the
same about the passages around the block.
-/

namespace Missive

/-! ## Operations for what is mentioned -/

namespace Op

/-- The operation was chosen for a mention. -/
def isMarked (op : Op) : Bool := Instruction.isMarked ⟨op.opcode, 0⟩

theorem Denotes.isMarked {pool : List Constant} {op : Op} {instruction : Instruction}
    (denotes : op.Denotes pool instruction) : op.isMarked = instruction.isMarked := by
  unfold Op.isMarked
  rw [denotes.opcode]
  rfl

theorem denotes_marked {pool : List Constant} {ops : List Op} {code : List Instruction}
    (denote : List.Forall₂ (Denotes pool) ops code) :
    List.Forall₂ (Denotes pool) (ops.filter isMarked) (code.filter Instruction.isMarked) := by
  induction denote with
  | nil =>
      exact .nil
  | @cons op instruction ops code denotes _ inductionHypothesis =>
      by_cases marked : op.isMarked = true
      · rw [List.filter_cons_of_pos marked,
          List.filter_cons_of_pos (denotes.isMarked ▸ marked)]
        exact .cons denotes inductionHypothesis
      · rw [List.filter_cons_of_neg marked,
          List.filter_cons_of_neg (denotes.isMarked ▸ marked)]
        exact inductionHypothesis

end Op

/-- The operation stands for what is mentioned where the scopes are around. -/
inductive Rendered (scopes : List Scope) : Mention → Op → Prop
  | slot {access : Access} {name : String} {slot : Nat} :
      findLocal name 0 scopes = some (slot, 0) →
      Rendered scopes (.use access name) (.bare (.indexed (access.opcode (.slot slot)) slot))
  | outer {access : Access} {name : String} {slot depth : Nat} :
      findLocal name 0 scopes = some (slot, depth + 1) → depth + 1 ≤ Instruction.maxPackedCount →
      slot ≤ Instruction.maxPackedIndex →
      Rendered scopes (.use access name)
        (.bare (.packed (access.opcode (.outer slot (depth + 1))) slot (depth + 1)))
  /-- The name denotes no local variable. -/
  | elsewhere {access : Access} {name : String} {op : Op} : findLocal name 0 scopes = none →
      op.opcode.operandKind = .field ∨ op.opcode.operandKind = .name →
      Rendered scopes (.use access name) op
  | block {session : Session} {owner : Option Owner} {parameters : List String}
      {statements : List Stmt} {body : CodeUnit} :
      lowerStatements ⟨session, Scope.ofParameters .block parameters :: scopes, owner⟩ true
        statements .empty = .ok ((), body) → parameters.length ≤ Instruction.maxPackedCount →
      Rendered scopes (.block parameters statements)
        (.pooled .makeClosure (.block body) (some parameters.length))

/-- The marked operations of the plan stand for what is mentioned. -/
def Plan.Renders (plan : Plan) (scopes : List Scope) (mentions : List Mention) : Prop :=
  ∀ ops, plan = .ok ops → List.Forall₂ (Rendered scopes) mentions (ops.filter Op.isMarked)

namespace Plan.Renders

variable {plan next : Plan} {scopes : List Scope} {mentions more : List Mention}

theorem nothing : Plan.Renders (pure []) scopes [] := by
  intro ops planned
  cases planned
  exact .nil

theorem unmarked {op : Op} (isUnmarked : op.isMarked = false) :
    (Plan.one op).Renders scopes [] := by
  intro ops planned
  cases planned
  rw [List.filter_cons_of_neg (Bool.eq_false_iff.mp isUnmarked)]
  exact .nil

theorem marked {op : Op} {mention : Mention} (isMarked : op.isMarked = true)
    (rendered : Rendered scopes mention op) : (Plan.one op).Renders scopes [mention] := by
  intro ops planned
  cases planned
  rw [List.filter_cons_of_pos isMarked]
  exact .cons rendered .nil

theorem followedBy (renders : plan.Renders scopes mentions)
    (nextRenders : next.Renders scopes more) :
    (plan.followedBy next).Renders scopes (mentions ++ more) := by
  intro ops planned
  obtain ⟨firstOps, nextOps, firstPlanned, nextPlanned, rfl⟩ := Plan.followedBy_eq_ok.mp planned
  rw [List.filter_append]
  exact List.rel_append (renders firstOps firstPlanned) (nextRenders nextOps nextPlanned)

/-- What is planned afterwards stands for nothing. -/
theorem followedByUnmarked (renders : plan.Renders scopes mentions) {op : Op}
    (isUnmarked : op.isMarked = false) :
    (plan.followedBy (Plan.one op)).Renders scopes mentions :=
  List.append_nil mentions ▸ renders.followedBy (unmarked isUnmarked)

theorem passed {condition : Prop} [Decidable condition] {error : CompileError}
    (renders : ¬ condition → plan.Renders scopes mentions) :
    Plan.Renders (if condition then throw error else plan) scopes mentions := by
  intro ops planned
  obtain ⟨passed, planned⟩ := Plan.check_eq_ok.mp planned
  exact renders passed ops planned

theorem check {condition : Prop} [Decidable condition] {error : CompileError}
    (renders : plan.Renders scopes mentions) :
    Plan.Renders (if condition then throw error else plan) scopes mentions :=
  passed fun _ => renders

theorem refused (error : CompileError) : Plan.Renders (throw error) scopes mentions := by
  intro ops impossible
  cases impossible

theorem ask {α : Type} {question : Except CompileError α} {plan : α → Plan}
    (renders : ∀ answer, question = .ok answer → (plan answer).Renders scopes mentions) :
    Plan.Renders (question >>= plan) scopes mentions := by
  intro ops planned
  obtain ⟨answer, answered, planned⟩ := Except.bind_eq_ok.mp planned
  exact renders answer answered ops planned

end Plan.Renders

/-! ## Expressions -/

theorem renders_literal (value : Literal) {scopes : List Scope} :
    (Plan.one value.op).Renders scopes [] := by
  cases value with
  | bool value =>
      cases value with
      | true | false =>
          exact .unmarked rfl
  | nil | int _ | float _ | string _ | symbol _ =>
      exact .unmarked rfl

/-- A local variable is one that is found in the scopes around. -/
theorem rendered_of_place {surroundings : Surroundings} {access : Access} {name : String}
    {location : Location} (placed : surroundings.place name = .ok location) :
    Rendered surroundings.scopes (.use access name) (access.op name location) := by
  obtain ⟨resolved, roomy⟩ := Surroundings.place_eq_ok.mp placed
  unfold Surroundings.resolve at resolved
  split at resolved
  · rename_i slot found
    cases resolved
    exact .slot found
  · rename_i slot depth found
    split at resolved
    · cases resolved
    · rename_i near
      cases resolved
      exact .outer found (Nat.le_of_not_lt near) (Nat.le_of_lt_succ roomy)
  · rename_i missing
    have global : Rendered surroundings.scopes (.use access name) (access.op name .global) :=
      .elsewhere missing (Or.inr (by cases access <;> rfl))
    split at resolved
    · rename_i owner _
      cases resolved
      unfold Owner.locate
      split
      · exact .elsewhere missing (Or.inl (by cases access <;> rfl))
      · split
        · exact .elsewhere missing (Or.inr (by cases access <;> rfl))
        · exact global
    · cases resolved
      exact global

theorem Access.isMarked_op (access : Access) (name : String) (location : Location) :
    (access.op name location).isMarked = true := by
  cases access <;> cases location <;> rfl

theorem renders_access (surroundings : Surroundings) (access : Access) (name : String) :
    (access.plan surroundings name).Renders surroundings.scopes [.use access name] :=
  .ask fun _ placed => .marked (access.isMarked_op name _)
    (rendered_of_place placed)

theorem renders_name (surroundings : Surroundings) (name : String) :
    (namePlan surroundings name).Renders surroundings.scopes
      (if isPseudoVariable name then [] else [.use .load name]) := by
  unfold namePlan isPseudoVariable
  by_cases isSelf : name = "self"
  · simp only [isSelf]
    exact .unmarked rfl
  by_cases isSuper : name = "super"
  · simp only [isSuper]
    exact .refused _
  by_cases isNil : name = "nil"
  · simp only [isNil]
    exact .unmarked rfl
  by_cases isTrue : name = "true"
  · simp only [isTrue]
    exact .unmarked rfl
  by_cases isFalse : name = "false"
  · simp only [isFalse]
    exact .unmarked rfl
  · simp only [isSelf, isSuper, isNil, isTrue, isFalse, if_false, beq_iff_eq, Bool.or_eq_true,
      or_self]
    exact renders_access surroundings .load name

theorem renders_send {surroundings : Surroundings} {receiver : Expr} {opcode : Opcode}
    {selector : Selector} {count : Nat} {arguments : Plan} {mentions : List Mention}
    (unmarked : Instruction.isMarked ⟨opcode, 0⟩ = false)
    (receiverRenders : (receiver.plan surroundings).Renders surroundings.scopes receiver.mentions)
    (renders : arguments.Renders surroundings.scopes mentions) :
    Plan.Renders (Plan.followedBy
        (if receiver.isSuper then superPlan surroundings else receiver.plan surroundings)
        (arguments.followedBy (Plan.one (.pooled opcode (.string selector) (some count)))))
      surroundings.scopes (receiver.mentions ++ mentions) := by
  refine Plan.Renders.followedBy ?_ (renders.followedByUnmarked unmarked)
  by_cases isSuper : receiver.isSuper = true
  · rw [if_pos isSuper, mentions_of_isSuper isSuper]
    exact .check (.unmarked rfl)
  · rw [if_neg isSuper]
    exact receiverRenders

mutual

theorem renders_expr (surroundings : Surroundings) : (expr : Expr) →
    (expr.plan surroundings).Renders surroundings.scopes expr.mentions
  | .literal value => by
      rw [Expr.plan, Expr.mentions]
      exact renders_literal value
  | .var name => by
      rw [Expr.plan, Expr.mentions]
      exact renders_name surroundings name
  | .self => by
      rw [Expr.plan, Expr.mentions]
      exact .unmarked rfl
  | .super => by
      rw [Expr.plan]
      exact .refused _
  | .assign target value => by
      rw [Expr.plan, Expr.mentions]
      exact ((renders_expr surroundings value).followedBy
        (renders_access surroundings .store target)).check
  | .send receiver selector arguments => by
      rw [Expr.plan, Expr.mentions]
      refine .ask fun _ _ => renders_send ?_ (renders_expr surroundings receiver)
        (renders_exprs surroundings arguments)
      split <;> rfl
  | .cascade receiver messages => by
      rw [Expr.plan, Expr.mentions]
      exact ((renders_expr surroundings receiver).followedBy
        (renders_messages surroundings messages)).check.check
  | .block parameters body => by
      rw [Expr.plan, Expr.mentions]
      refine .passed fun few => .ask fun unit planned => .marked rfl ?_
      have realizes := realizes_statements (surroundings.inBlock parameters) true body
      exact .block (realizes.toUnit.mp planned) (Nat.le_of_not_lt few)
  | .array elements => by
      rw [Expr.plan, Expr.mentions]
      exact (renders_exprs surroundings elements).followedByUnmarked rfl
  | .dictionary entries => by
      rw [Expr.plan, Expr.mentions]
      exact (renders_entries surroundings entries).followedByUnmarked rfl

theorem renders_exprs (surroundings : Surroundings) : (exprs : List Expr) →
    (planAll surroundings exprs).Renders surroundings.scopes (mentionsInAll exprs)
  | [] => by
      rw [planAll, mentionsInAll]
      exact .nothing
  | expr :: rest => by
      rw [planAll, mentionsInAll]
      exact (renders_expr surroundings expr).followedBy (renders_exprs surroundings rest)

theorem renders_messages (surroundings : Surroundings) : (messages : List Message) →
    (planMessages surroundings messages).Renders surroundings.scopes (mentionsInMessages messages)
  | [] => by
      rw [planMessages, mentionsInMessages]
      exact .nothing
  | ⟨selector, arguments⟩ :: rest => by
      rw [planMessages, mentionsInMessages]
      refine .ask fun _ _ => ?_
      have popped : (Plan.one (.bare (.bare .pop))).Renders surroundings.scopes [] := .unmarked rfl
      have sent : (Plan.one (.pooled .send (.string selector) (some arguments.length))).Renders
          surroundings.scopes [] := .unmarked rfl
      exact (Plan.Renders.unmarked rfl).followedBy <|
        (renders_exprs surroundings arguments).followedBy <|
          sent.followedBy (popped.followedBy (renders_messages surroundings rest))

theorem renders_entries (surroundings : Surroundings) : (entries : List Entry) →
    (planEntries surroundings entries).Renders surroundings.scopes (mentionsInEntries entries)
  | [] => by
      rw [planEntries, mentionsInEntries]
      exact .nothing
  | ⟨key, value⟩ :: rest => by
      rw [planEntries, mentionsInEntries, List.append_assoc]
      exact (renders_expr surroundings key).followedBy <|
        (renders_expr surroundings value).followedBy (renders_entries surroundings rest)

end

/-! ## Bodies and programs -/

/-- The value of a statement is returned or dropped, and neither is a mention. -/
theorem Plan.Renders.statement {value next : Plan} {scopes : List Scope}
    {mentions more : List Mention} {op : Op} (renders : value.Renders scopes mentions)
    (isUnmarked : op.isMarked = false) (nextRenders : next.Renders scopes more) :
    (value.followedBy ((Plan.one op).followedBy next)).Renders scopes (mentions ++ more) :=
  renders.followedBy ((Plan.Renders.unmarked isUnmarked).followedBy nextRenders)

theorem isMarked_afterStatement (isLast : Bool) :
    (Op.bare (afterStatement isLast)).isMarked = false := by
  cases isLast <;> rfl

theorem isMarked_returnOpcode (kind : BodyKind) :
    (Op.bare (.bare (returnOpcode kind))).isMarked = false := by
  cases kind <;> rfl

theorem renders_emptyBody (kind : BodyKind) (scopes : List Scope) :
    (emptyBodyPlan kind).Renders scopes [] := by
  intro ops planned
  cases planned
  cases kind <;> exact .nil

/-- Statements after the declarations of a body. -/
theorem renders_following (surroundings : Surroundings) (statements : List Stmt) :
    (planStatements surroundings false statements).Renders surroundings.scopes
      (mentionsInBody statements) := by
  induction statements with
  | nil =>
      rw [planStatements, mentionsInBody]
      exact .nothing
  | cons statement rest inductionHypothesis =>
      cases statement with
      | declare names | define definition =>
          rw [planStatements]
          exact .refused _
      | expr value =>
          rw [planStatements, mentionsInBody]
          exact (renders_expr surroundings value).statement (isMarked_afterStatement _)
            inductionHypothesis
      | «return» value =>
          rw [planStatements, mentionsInBody]
          exact (renders_expr surroundings value).statement (isMarked_returnOpcode _)
            inductionHypothesis

/-- All statements of a body stand below its declarations. -/
theorem renders_body {session : Session} {owner : Option Owner} {scope : Scope}
    {outer : List Scope} (statements : List Stmt) :
    (planStatements ⟨session, scope :: outer, owner⟩ true statements).Renders
      (scope.declareAll (declaredFirst statements) :: outer) (mentionsInBody statements) := by
  induction statements generalizing scope with
  | nil =>
      rw [planStatements, mentionsInBody]
      exact renders_emptyBody _ _
  | cons statement rest inductionHypothesis =>
      cases statement with
      | declare names =>
          rw [planStatements, mentionsInBody, declaredFirst, scope.declareAll_append]
          refine .ask fun extended declared => ?_
          rw [Surroundings.declareAll_ok rfl declared]
          exact inductionHypothesis
      | define definition =>
          rw [planStatements]
          exact .refused _
      | expr value =>
          rw [planStatements, mentionsInBody]
          exact (renders_expr _ value).statement (isMarked_afterStatement _)
            (renders_following _ rest)
      | «return» value =>
          rw [planStatements, mentionsInBody]
          exact (renders_expr _ value).statement (isMarked_returnOpcode _)
            (renders_following _ rest)

/-- A statement of a program in front of others. -/
theorem rendered_statement {first ops : List Op} {last : Op} {scopes : List Scope}
    {mentions more : List Mention}
    (rendered : List.Forall₂ (Rendered scopes) mentions (first.filter Op.isMarked))
    (isUnmarked : last.isMarked = false)
    (others : List.Forall₂ (Rendered scopes) more (ops.filter Op.isMarked)) :
    List.Forall₂ (Rendered scopes) (mentions ++ more)
      ((first ++ last :: ops).filter Op.isMarked) := by
  rw [List.filter_append, List.filter_cons_of_neg (Bool.eq_false_iff.mp isUnmarked)]
  exact List.rel_append rendered others

/-- The statements of a program after its declarations.  A class that is defined in between
changes the session but not the variables of the top level. -/
theorem rendered_following {session final : Session} {program : Program} {ops : List Op}
    (planned : planProgram false session program = .ok (final, ops)) :
    List.Forall₂ (Rendered session.topLevel.scopes) (mentionsInBody program)
      (ops.filter Op.isMarked) := by
  induction program generalizing session ops with
  | nil =>
      cases planned
      rw [mentionsInBody]
      exact .nil
  | cons statement rest inductionHypothesis =>
      cases statement with
      | declare names =>
          cases planned
      | define definition =>
          have sameLocals := lowerClass_locals session definition
          obtain ⟨extended, descriptor, others, lowered, othersPlanned, rfl⟩ :=
            planProgram_define_ok planned
          rw [lowered] at sameLocals
          have sameScopes : extended.topLevel.scopes = session.topLevel.scopes := by
            rw [Session.topLevel, Session.topLevel, sameLocals]
          rw [mentionsInBody, ← List.nil_append (mentionsInBody rest)]
          exact rendered_statement .nil (isMarked_afterStatement _)
            (sameScopes ▸ inductionHypothesis othersPlanned)
      | expr value =>
          obtain ⟨first, others, valuePlanned, othersPlanned, rfl⟩ := planProgram_expr_ok planned
          rw [mentionsInBody]
          exact rendered_statement (renders_expr session.topLevel value first valuePlanned)
            (isMarked_afterStatement _) (inductionHypothesis othersPlanned)
      | «return» value =>
          obtain ⟨first, others, valuePlanned, othersPlanned, rfl⟩ := planProgram_return_ok planned
          rw [mentionsInBody]
          exact rendered_statement (renders_expr session.topLevel value first valuePlanned) rfl
            (inductionHypothesis othersPlanned)

theorem rendered_program {session final : Session} {program : Program} {ops : List Op}
    (planned : planProgram true session program = .ok (final, ops)) :
    List.Forall₂ (Rendered [Passage.scope ⟨.topLevel, session.locals, program⟩])
      (mentionsInBody program) (ops.filter Op.isMarked) := by
  induction program generalizing session with
  | nil =>
      cases planned
      rw [mentionsInBody]
      exact .nil
  | cons statement rest inductionHypothesis =>
      cases statement with
      | declare names =>
          obtain ⟨_, extended, declared, restPlanned⟩ := planProgram_declare_ok planned
          have sameScope : Passage.scope ⟨.topLevel, session.locals, .declare names :: rest⟩ =
              Passage.scope ⟨.topLevel, extended.locals, rest⟩ := by
            unfold Passage.scope
            rw [declaredFirst, Scope.declareAll_append, Session.declareAll_ok declared]
          rw [sameScope, mentionsInBody]
          exact inductionHypothesis restPlanned
      | define definition | expr value | «return» value =>
          exact rendered_following planned

/-! ## The code of a passage -/

/-- The unit is the code of the first passage, which stands inside the others. -/
inductive CodeOf : List Passage → CodeUnit → Prop
  | body {session : Session} {owner : Option Owner} {passage : Passage} {outer : List Passage}
      {unit : CodeUnit} :
      lowerStatements
        ⟨session, ⟨passage.kind, passage.given⟩ :: outer.map Passage.scope, owner⟩ true
        passage.statements .empty = .ok ((), unit) → CodeOf (passage :: outer) unit
  | program {session final : Session} {program : Program} {unit : CodeUnit} :
      session.compile program = (final, .ok unit) →
      CodeOf [⟨.topLevel, session.locals, program⟩] unit

/-- The marked instructions of the code stand for what the passage mentions. -/
theorem CodeOf.rendered {passage : Passage} {outer : List Passage} {unit : CodeUnit}
    (codeOf : CodeOf (passage :: outer) unit) :
    ∃ ops, List.Forall₂ (Rendered ((passage :: outer).map Passage.scope))
        (mentionsInBody passage.statements) (ops.filter Op.isMarked) ∧
      List.Forall₂ (Op.Denotes unit.constants) ops unit.code.toList := by
  have denoted : ∀ ops, assemble ops .empty = .ok ((), unit) →
      List.Forall₂ (Op.Denotes unit.constants) ops unit.code.toList := by
    intro ops assembled
    obtain ⟨added, isCode, denotes⟩ :=
      (assembled_of_assemble CodeUnit.poolFits_empty assembled).code
    rw [show unit.code.toList = added from isCode]
    exact denotes _ (List.prefix_refl _)
  cases codeOf with
  | body lowered =>
      obtain ⟨ops, planned, assembled⟩ := (realizes_statements _ true _ _ _).mp lowered
      exact ⟨ops, renders_body passage.statements ops planned, denoted ops assembled⟩
  | @program session final program _ compiled =>
      obtain ⟨ops, planned, assembled⟩ :=
        lowerProgramFrom_eq_ok.mp (Session.compile_eq_ok.mp compiled)
      exact ⟨ops, rendered_program planned, denoted ops assembled⟩

theorem forall₂_comp {α β γ : Type} {first : α → β → Prop} {second : β → γ → Prop}
    {left : List α} {middle : List β} {right : List γ} (related : List.Forall₂ first left middle)
    (further : List.Forall₂ second middle right) :
    List.Forall₂ (Relation.Comp first second) left right := by
  induction related generalizing right with
  | nil =>
      cases further
      exact .nil
  | cons here _ inductionHypothesis =>
      cases further with
      | cons next rest =>
          exact .cons ⟨_, here, next⟩ (inductionHypothesis rest)

/-- Which mention an instruction of the code stands for, and how it was chosen. -/
theorem CodeOf.exists_mention {passage : Passage} {outer : List Passage} {unit : CodeUnit}
    {ip : Nat} {instruction : Instruction} (codeOf : CodeOf (passage :: outer) unit)
    (next : unit.code[ip]? = some instruction) (marked : instruction.isMarked = true) :
    ∃ mention op, (mentionsInBody passage.statements)[unit.mentionsBefore ip]? = some mention ∧
      Rendered ((passage :: outer).map Passage.scope) mention op ∧
      op.Denotes unit.constants instruction := by
  obtain ⟨ops, rendered, denotes⟩ := codeOf.rendered
  obtain ⟨mention, isMention, op, rendered, denotes⟩ :=
    CodeUnit.exists_mention (forall₂_comp rendered (Op.denotes_marked denotes)) next marked
  exact ⟨mention, op, isMention, rendered, denotes⟩

/-- The unit was compiled from the passage, which stands inside the other ones.  The corpus has all
of them, and those inside the passage. -/
structure Rendition (corpus : Corpus) (passage : Passage) (outer : List Passage)
    (unit : CodeUnit) : Prop where
  enclosed : Enclosed (passage :: outer)
  code : CodeOf (passage :: outer) unit
  around : ∀ around ∈ passage :: outer, corpus.contains around
  inner : ∀ inside ∈ passagesInBody passage.statements, corpus.contains inside

/-- A program that was compiled in a session, whatever had been declared there. -/
theorem rendition_program {corpus : Corpus} {session final : Session} {program : Program}
    {unit : CodeUnit} (compiled : session.compile program = (final, .ok unit))
    (contains : ∀ passage ∈ program.passages session, corpus.contains passage) :
    Rendition corpus ⟨.topLevel, session.locals, program⟩ [] unit := by
  obtain ⟨itself, inner⟩ := List.forall_mem_cons.mp contains
  exact ⟨.outermost nofun, .program compiled, List.forall_mem_singleton.mpr itself, inner⟩

namespace Rendition

variable {corpus : Corpus} {passage : Passage} {outer : List Passage} {unit : CodeUnit} {ip : Nat}
  {instruction : Instruction}

/-- A local variable that an instruction uses is declared by the innermost passage that declares
the name. -/
theorem localVariable (rendition : Rendition corpus passage outer unit)
    (next : unit.code[ip]? = some instruction)
    (isLocal : instruction.opcode.operandKind = .slot ∨
      instruction.opcode.operandKind = .outer) :
    ∃ access name depth slot,
      (mentionsInBody passage.statements)[unit.mentionsBefore ip]? = some (.use access name) ∧
      DeclaredAt (passage :: outer) name depth slot ∧
      slot ≤ Instruction.maxPackedIndex ∧ depth ≤ Instruction.maxPackedCount ∧
      instruction = if depth = 0 then .indexed (access.opcode (.slot slot)) slot
        else .packed (access.opcode (.outer slot depth)) slot depth := by
  have marked : instruction.isMarked = true := by
    unfold Instruction.isMarked
    rcases isLocal with isSlot | isOuter
    · rw [isSlot]
    · rw [isOuter]
  obtain ⟨mention, op, isMention, rendered, denotes⟩ := rendition.code.exists_mention next marked
  have within : ∀ {name : String} {depth slot : Nat},
      DeclaredAt (passage :: outer) name depth slot → slot ≤ Instruction.maxPackedIndex := by
    intro name depth slot declaredAt
    obtain ⟨declaring, atDepth, isSlot⟩ := declaredAt.declared
    have few := (corpus.wellNamed declaring
      (rendition.around declaring (List.mem_of_getElem? atDepth))).2
    have inside := (List.findIdx?_eq_some_iff_getElem.mp isSlot).1
    omega
  cases rendered with
  | @slot access name slot found =>
      obtain ⟨depth, isDepth, declaredAt⟩ := findLocal_passages found
      cases denotes
      have here : depth = 0 := by omega
      refine ⟨access, name, depth, slot, isMention, declaredAt, within declaredAt,
        here ▸ Nat.zero_le _, ?_⟩
      rw [if_pos here]
  | @outer access name slot further found near _ =>
      obtain ⟨depth, isDepth, declaredAt⟩ := findLocal_passages found
      cases denotes
      have isFurther : further + 1 = depth := by omega
      refine ⟨access, name, depth, slot, isMention, declaredAt, within declaredAt,
        isFurther ▸ near, ?_⟩
      rw [if_neg (by omega), isFurther]
  | elsewhere _ isOther =>
      have sameOpcode := denotes.opcode
      rw [sameOpcode] at isOther
      rcases isLocal with isSlot | isOuter
      · simp [isSlot] at isOther
      · simp [isOuter] at isOther
  | block _ =>
      have isClosure : instruction.opcode = .makeClosure := denotes.opcode.symm
      rw [isClosure] at isLocal
      rcases isLocal with impossible | impossible <;> cases impossible

/-- The code of a block was compiled inside the passages around the block. -/
theorem block {body : CodeUnit} (rendition : Rendition corpus passage outer unit)
    (next : unit.code[ip]? = some instruction) (isClosure : instruction.opcode = .makeClosure)
    (selects : Instruction.packedSelected unit.constants instruction.operand =
      some (.block body)) :
    ∃ parameters statements,
      Rendition corpus ⟨.block, parameters, statements⟩ (passage :: outer) body ∧
      (mentionsInBody passage.statements)[unit.mentionsBefore ip]? =
        some (.block parameters statements) ∧
      (Instruction.unpack instruction.operand).2 = parameters.length := by
  have marked : instruction.isMarked = true := by
    unfold Instruction.isMarked
    rw [isClosure]
    rfl
  obtain ⟨mention, op, isMention, rendered, denotes⟩ := rendition.code.exists_mention next marked
  have sameOpcode : op.opcode = .makeClosure := denotes.opcode.trans isClosure
  cases rendered with
  | @slot access _ _ _ | @outer access _ _ _ _ _ _ =>
      cases access <;> cases sameOpcode
  | elsewhere _ isOther =>
      rw [sameOpcode] at isOther
      rcases isOther with impossible | impossible <;> cases impossible
  | @block session owner parameters statements made lowered few =>
      cases denotes with
      | @pooled _ _ _ index small found =>
          have isPlaced : Op.placed .makeClosure index (some parameters.length) =
            .packed .makeClosure index parameters.length := rfl
          rw [isPlaced, Instruction.packed] at selects ⊢
          rw [Instruction.packedSelected_packedOperand small few, found] at selects
          cases selects
          have mentioned : .block parameters statements ∈ mentionsInBody passage.statements :=
            List.mem_of_getElem? isMention
          have listed := listed_body passage.statements parameters statements mentioned
          have contained := rendition.inner _ (listed List.mem_cons_self)
          have nodup : parameters.Nodup := (corpus.wellNamed _ contained).1 (by simp)
          rw [Scope.ofParameters_eq nodup] at lowered
          refine ⟨parameters, statements, ⟨.inside rfl mentioned rendition.enclosed,
            .body lowered, List.forall_mem_cons.mpr ⟨contained, rendition.around⟩, ?_⟩,
            isMention, ?_⟩
          · intro inside member
            exact rendition.inner inside (listed (List.mem_cons_of_mem _ member))
          · rw [Instruction.unpack_packedOperand small few]

/-- The code of a method was compiled by itself, and its selector asks for as many arguments as it
has parameters. -/
theorem method {descriptor : ClassDescriptor} {method : MethodDescriptor}
    (rendition : Rendition corpus passage outer unit)
    (member : .classDescriptor descriptor ∈ unit.constants)
    (isMethod : method ∈ descriptor.methods ++ descriptor.classMethods) :
    (∃ statements, Rendition corpus ⟨.method, method.parameters, statements⟩ [] method.body) ∧
      method.parameters.length = Selector.arity method.selector := by
  cases rendition.code with
  | body lowered =>
      have isBody : Body _ _ passage.statements unit := ⟨_, lowered⟩
      rcases isBody.isOf _ member with impossible | ⟨_, _, _, impossible, _⟩
      · cases impossible
      · cases impossible
  | @program session final program _ isCompiled =>
      obtain ⟨sources, definedBy⟩ := Session.definedBy_compile isCompiled
      cases definedBy.ofProgram _ member with
      | scalar impossible =>
          cases impossible
      | @classDescriptor source isSource =>
          obtain ⟨classSide, onSide⟩ : ∃ classSide, method ∈ source.methodsOn classSide := by
            rcases List.mem_append.mp isMethod with onInstances | onClass
            · exact ⟨false, onInstances⟩
            · exact ⟨true, onClass⟩
          obtain ⟨written, isWritten, lowered⟩ := source.lowered_of_method onSide
          have inProgram : source.definition ∈ Program.definitions program := by
            rw [← definedBy.written]
            exact List.mem_map_of_mem isSource
          have listed := mem_passages_of_method inProgram isWritten
          have contained := rendition.inner _ (listed List.mem_cons_self)
          have nodup : written.parameters.Nodup := (corpus.wellNamed _ contained).1 nofun
          obtain ⟨body, arity, bodyLowered, rfl⟩ := lowerMethod_eq_ok.mp lowered
          rw [Scope.ofParameters_eq nodup] at bodyLowered
          refine ⟨⟨written.body, .outermost nofun, .body bodyLowered,
            List.forall_mem_singleton.mpr contained, ?_⟩, (checkArity_ok arity).2.symm⟩
          exact fun inside member => rendition.inner inside (listed (List.mem_cons_of_mem _ member))

end Rendition

end Missive
