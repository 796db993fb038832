import Mathlib.Data.List.Forall2
import Mathlib.Logic.Relation
import Missive.Proofs.Code.Verified
import Missive.Proofs.Compile.Lowering
import Missive.Proofs.Safety.Layout

/-!
# Which code stands for which name

A body mentions variables and blocks in a certain order.  Its code has one instruction for each
mention, in the same order, and other instructions only where nothing is mentioned.  So the name
for which an instruction was made is found by counting the instructions of this kind before it.

Bodies define no classes and have no jumps, and the blocks in their pools are the blocks that they
mention.
-/

namespace Missive

/-- What an expression mentions: a variable that it uses, or a block. -/
inductive Mention where
  | use (access : Access) (name : String)
  | block (parameters : List String) (body : List Stmt)

mutual

/-- What the expression mentions outside of its blocks, in the order of evaluation. -/
def Expr.mentions : Expr → List Mention
  | .literal _ | .self | .super => []
  | .var name => if isPseudoVariable name then [] else [.use .load name]
  | .assign target value => value.mentions ++ [.use .store target]
  | .send receiver _ arguments => receiver.mentions ++ mentionsInAll arguments
  | .cascade receiver messages => receiver.mentions ++ mentionsInMessages messages
  | .block parameters body => [.block parameters body]
  | .array elements => mentionsInAll elements
  | .dictionary entries => mentionsInEntries entries

/-- The same for expressions in a row. -/
def mentionsInAll : List Expr → List Mention
  | [] => []
  | expr :: rest => expr.mentions ++ mentionsInAll rest

/-- The same for the messages of a cascade. -/
def mentionsInMessages : List Message → List Mention
  | [] => []
  | ⟨_, arguments⟩ :: rest => mentionsInAll arguments ++ mentionsInMessages rest

/-- The same for the entries of a dictionary. -/
def mentionsInEntries : List Entry → List Mention
  | [] => []
  | ⟨key, value⟩ :: rest => key.mentions ++ value.mentions ++ mentionsInEntries rest

/-- The same for the statements of a body. -/
def mentionsInBody : List Stmt → List Mention
  | [] => []
  | .expr value :: rest | .return value :: rest => value.mentions ++ mentionsInBody rest
  | .declare _ :: rest | .define _ :: rest => mentionsInBody rest

end

namespace Instruction

/-- The instruction was made for a mention. -/
def isMarked (instruction : Instruction) : Bool :=
  match instruction.opcode.operandKind with
  | .slot | .outer | .field | .name | .closure => true
  | .none | .constant | .send | .target | .classDescriptor | .count => false

/-- The instruction neither defines a class nor jumps. -/
def isStraight (instruction : Instruction) : Bool :=
  match instruction.opcode.operandKind with
  | .classDescriptor | .target => false
  | .none | .constant | .slot | .outer | .field | .name | .send | .closure | .count => true

end Instruction

/-- The instruction uses a variable of the given name at a location. -/
inductive Placed (pool : List Constant) (access : Access) (name : String) :
    Location → Instruction → Prop
  | slot {index : Nat} : Placed pool access name (.slot index)
      (.indexed (access.opcode (.slot index)) index)
  | outer {slot depth : Nat} : Placed pool access name (.outer slot depth)
      (.packed (access.opcode (.outer slot depth)) slot depth)
  | field {index : Nat} : Placed pool access name (.field index)
      (.indexed (access.opcode (.field index)) index)
  | classVar {index : Nat} : index ≤ Instruction.maxPackedIndex →
      pool[index]? = some (.string name) →
      Placed pool access name .classVar (.indexed (access.opcode .classVar) index)
  | global {index : Nat} : index ≤ Instruction.maxPackedIndex →
      pool[index]? = some (.string name) →
      Placed pool access name .global (.indexed (access.opcode .global) index)

/-- The unit is the code of the statements, which stand in the methods of a class or in the
program itself. -/
def Body (session : Session) (owner : Option Owner) (statements : List Stmt) (unit : CodeUnit) :
    Prop :=
  ∃ scopes, lowerStatements ⟨session, scopes, owner⟩ true statements .empty = .ok ((), unit)

/-- The instruction stands for what is mentioned. -/
inductive StandsFor (session : Session) (owner : Option Owner) (pool : List Constant) :
    Mention → Instruction → Prop
  | use {access : Access} {name : String} {scopes : List Scope} {location : Location}
      {instruction : Instruction} :
      Surroundings.resolve ⟨session, scopes, owner⟩ name = .ok location →
      Placed pool access name location instruction →
      StandsFor session owner pool (.use access name) instruction
  | block {parameters : List String} {statements : List Stmt} {body : CodeUnit} {index : Nat} :
      Body session owner statements body → pool[index]? = some (.block body) →
      StandsFor session owner pool (.block parameters statements)
        (.packed .makeClosure index parameters.length)

/-- The constant is a value or the code of a block that is mentioned. -/
def Constant.IsOf (session : Session) (owner : Option Owner) (mentions : List Mention)
    (constant : Constant) : Prop :=
  constant.isScalar = true ∨ ∃ parameters statements body,
    constant = .block body ∧ .block parameters statements ∈ mentions ∧
      Body session owner statements body

theorem Constant.IsOf.mono {session : Session} {owner : Option Owner}
    {mentions more : List Mention} {constant : Constant}
    (isOf : constant.IsOf session owner mentions) (subset : mentions ⊆ more) :
    constant.IsOf session owner more := by
  rcases isOf with isScalar | ⟨parameters, statements, body, isBlock, mentioned, isBody⟩
  · exact Or.inl isScalar
  · exact Or.inr ⟨parameters, statements, body, isBlock, subset mentioned, isBody⟩

/-! ## Code that was added -/

/-- The second unit is the first one with code for the mentions.  The pool may still grow when
the code runs. -/
structure Traced (session : Session) (owner : Option Owner) (mentions : List Mention)
    (unit grown : CodeUnit) : Prop where
  poolFits : grown.PoolFits
  constants : ∃ added, grown.constants = unit.constants ++ added ∧
    ∀ constant ∈ added, constant.IsOf session owner mentions
  code : ∃ added, grown.code.toList = unit.code.toList ++ added ∧
    (∀ instruction ∈ added, instruction.isStraight = true) ∧
    ∀ pool, grown.constants <+: pool →
      List.Forall₂ (StandsFor session owner pool) mentions (added.filter Instruction.isMarked)

namespace Traced

variable {session : Session} {owner : Option Owner} {mentions more : List Mention}
  {unit between grown : CodeUnit}

theorem refl (poolFits : unit.PoolFits) : Traced session owner [] unit unit := by
  refine ⟨poolFits, ⟨[], (List.append_nil _).symm, ?_⟩, ⟨[], (List.append_nil _).symm, ?_, ?_⟩⟩
  · exact fun _ impossible => (List.not_mem_nil impossible).elim
  · exact fun _ impossible => (List.not_mem_nil impossible).elim
  · exact fun _ _ => .nil

theorem trans (earlier : Traced session owner mentions unit between)
    (later : Traced session owner more between grown) :
    Traced session owner (mentions ++ more) unit grown := by
  obtain ⟨firstConstants, firstPool, firstOf⟩ := earlier.constants
  obtain ⟨secondConstants, secondPool, secondOf⟩ := later.constants
  obtain ⟨firstCode, firstAdded, firstStraight, firstStandsFor⟩ := earlier.code
  obtain ⟨secondCode, secondAdded, secondStraight, secondStandsFor⟩ := later.code
  refine ⟨later.poolFits, ⟨firstConstants ++ secondConstants, ?_, ?_⟩,
    ⟨firstCode ++ secondCode, ?_, ?_, ?_⟩⟩
  · rw [secondPool, firstPool, List.append_assoc]
  · refine List.forall_mem_append.mpr ⟨?_, ?_⟩
    · exact fun constant member =>
        (firstOf constant member).mono (List.subset_append_left _ _)
    · exact fun constant member =>
        (secondOf constant member).mono (List.subset_append_right _ _)
  · rw [secondAdded, firstAdded, List.append_assoc]
  · exact List.forall_mem_append.mpr ⟨firstStraight, secondStraight⟩
  · intro pool isLonger
    have fromBetween : between.constants <+: pool :=
      (secondPool ▸ List.prefix_append _ _ : between.constants <+: grown.constants).trans isLonger
    rw [List.filter_append]
    exact List.rel_append (firstStandsFor pool fromBetween) (secondStandsFor pool isLonger)

theorem add {instruction : Instruction} (traced : Traced session owner mentions unit grown)
    (straight : instruction.isStraight = true) (unmarked : instruction.isMarked = false) :
    Traced session owner mentions unit (grown.add instruction) := by
  rw [← List.append_nil mentions]
  refine traced.trans ⟨traced.poolFits, ⟨[], (List.append_nil _).symm, ?_⟩,
    ⟨[instruction], Array.toList_push, ?_, ?_⟩⟩
  · exact fun _ impossible => (List.not_mem_nil impossible).elim
  · exact List.forall_mem_singleton.mpr straight
  · intro pool _
    rw [List.filter_cons_of_neg (Bool.not_eq_true _ ▸ unmarked)]
    exact .nil

theorem addMarked {instruction : Instruction} {mention : Mention}
    (traced : Traced session owner mentions unit grown)
    (straight : instruction.isStraight = true) (marked : instruction.isMarked = true)
    (standsFor : ∀ pool, grown.constants <+: pool →
      StandsFor session owner pool mention instruction) :
    Traced session owner (mentions ++ [mention]) unit (grown.add instruction) := by
  refine traced.trans ⟨traced.poolFits, ⟨[], (List.append_nil _).symm, ?_⟩,
    ⟨[instruction], Array.toList_push, ?_, ?_⟩⟩
  · exact fun _ impossible => (List.not_mem_nil impossible).elim
  · exact List.forall_mem_singleton.mpr straight
  · intro pool isLonger
    rw [List.filter_cons_of_pos marked]
    exact .cons (standsFor pool isLonger) .nil

theorem addConstant {constant : Constant} {index : Nat}
    (traced : Traced session owner mentions unit between)
    (isScalar : constant.isScalar = true)
    (added : Missive.addConstant constant between = .ok (index, grown)) :
    Traced session owner mentions unit grown ∧ index ≤ Instruction.maxPackedIndex ∧
      grown.constants[index]? = some constant := by
  obtain ⟨small, found, poolFits, sameCode, pools⟩ := addConstant_ok traced.poolFits added
  refine ⟨?_, small, found⟩
  rw [← List.append_nil mentions]
  refine traced.trans ⟨poolFits, ?_, ⟨[], ?_, ?_, fun _ _ => .nil⟩⟩
  · rcases pools with same | longer
    · exact ⟨[], by rw [same, List.append_nil], fun _ impossible =>
        (List.not_mem_nil impossible).elim⟩
    · exact ⟨[constant], longer, List.forall_mem_singleton.mpr (Or.inl isScalar)⟩
  · rw [sameCode, List.append_nil]
  · exact fun _ impossible => (List.not_mem_nil impossible).elim

end Traced

/-- A block was added: its body to the pool, and the instruction that creates it. -/
theorem traced_block {session : Session} {owner : Option Owner} {unit between : CodeUnit}
    {parameters : List String} {statements : List Stmt} {body : CodeUnit} {index : Nat}
    (poolFits : unit.PoolFits) (isBody : Body session owner statements body)
    (added : addConstant (.block body) unit = .ok (index, between)) :
    Traced session owner [.block parameters statements] unit
      (between.add (.packed .makeClosure index parameters.length)) := by
  obtain ⟨small, found, betweenFits, sameCode, pools⟩ := addConstant_ok poolFits added
  refine ⟨betweenFits, ?_, ⟨[.packed .makeClosure index parameters.length], ?_, ?_, ?_⟩⟩
  · rcases pools with same | longer
    · exact ⟨[], by rw [List.append_nil]; exact same, fun _ impossible =>
        (List.not_mem_nil impossible).elim⟩
    · refine ⟨[.block body], longer, List.forall_mem_singleton.mpr ?_⟩
      exact Or.inr ⟨parameters, statements, body, rfl, List.mem_cons_self, isBody⟩
  · rw [← sameCode]
    exact Array.toList_push
  · exact List.forall_mem_singleton.mpr rfl
  · intro pool isLonger
    exact .cons (.block isBody (found_in_longer found isLonger)) .nil

/-! ## Expressions -/

/-- The surroundings belong to the session and to the class. -/
structure Surroundings.Belongs (surroundings : Surroundings) (session : Session)
    (owner : Option Owner) : Prop where
  session : surroundings.session = session
  owner : surroundings.owner = owner

namespace Surroundings.Belongs

variable {surroundings : Surroundings} {session : Session} {owner : Option Owner}

theorem inBlock (belongs : surroundings.Belongs session owner) (parameters : List String) :
    (surroundings.inBlock parameters).Belongs session owner :=
  ⟨belongs.session, belongs.owner⟩

theorem eta (belongs : surroundings.Belongs session owner) :
    surroundings = ⟨session, surroundings.scopes, owner⟩ := by
  obtain ⟨rfl, rfl⟩ := belongs
  rfl

theorem declare {name : String} {extended : Surroundings}
    (belongs : surroundings.Belongs session owner)
    (declared : surroundings.declare name = .ok extended) : extended.Belongs session owner := by
  unfold Surroundings.declare at declared
  split at declared
  · cases declared
  · split at declared
    · cases declared
      exact ⟨belongs.session, belongs.owner⟩
    · cases declared
      exact belongs

theorem declareAll {names : List String} {extended : Surroundings}
    (belongs : surroundings.Belongs session owner)
    (declared : surroundings.declareAll names = .ok extended) :
    extended.Belongs session owner := by
  induction names generalizing surroundings with
  | nil =>
      cases declared
      exact belongs
  | cons name rest inductionHypothesis =>
      obtain ⟨next, oneDeclared, restDeclared⟩ := Except.bind_eq_ok.mp declared
      exact inductionHypothesis (belongs.declare oneDeclared) restDeclared

end Surroundings.Belongs

section Expressions

variable {session : Session} {owner : Option Owner} {surroundings : Surroundings}
  {unit grown : CodeUnit}

theorem traced_literal {value : Literal} (poolFits : unit.PoolFits)
    (lowered : lowerLiteral value unit = .ok ((), grown)) :
    Traced session owner [] unit grown := by
  have start : Traced session owner [] unit unit := .refl poolFits
  have viaConstant : ∀ {constant : Constant}, constant.isScalar = true →
      (do emit (.indexed .pushConstant (← addConstant constant)) : Lower Unit) unit =
        .ok ((), grown) → Traced session owner [] unit grown := by
    intro constant isScalar pushed
    obtain ⟨index, between, added, emitted⟩ := Lower.bind_eq_ok.mp pushed
    obtain rfl := Lower.emit_eq_ok.mp emitted
    exact (start.addConstant isScalar added).1.add rfl rfl
  cases value with
  | int _ | float _ | string _ | symbol _ =>
      exact viaConstant rfl lowered
  | bool value =>
      cases value with
      | true | false =>
          obtain rfl := Lower.emit_eq_ok.mp lowered
          exact start.add rfl rfl
  | nil =>
      obtain rfl := Lower.emit_eq_ok.mp lowered
      exact start.add rfl rfl

theorem Access.isMarked_opcode (access : Access) (location : Location) (operand : Int32) :
    Instruction.isMarked ⟨access.opcode location, operand⟩ = true := by
  cases access <;> cases location <;> rfl

theorem Access.isStraight_opcode (access : Access) (location : Location) (operand : Int32) :
    Instruction.isStraight ⟨access.opcode location, operand⟩ = true := by
  cases access <;> cases location <;> rfl

theorem traced_access {access : Access} {name : String}
    (belongs : surroundings.Belongs session owner) (poolFits : unit.PoolFits)
    (lowered : lowerAccess surroundings access name unit = .ok ((), grown)) :
    Traced session owner [.use access name] unit grown := by
  have start : Traced session owner [] unit unit := .refl poolFits
  obtain ⟨location, resolved, accessed⟩ := lowerAccess_ok lowered
  rw [belongs.eta] at resolved
  cases location with
  | slot index | field index =>
      obtain rfl := Lower.emit_eq_ok.mp accessed
      exact start.addMarked (access.isStraight_opcode _ _) (access.isMarked_opcode _ _)
        fun _ _ => .use resolved (by constructor)
  | outer slot depth =>
      obtain ⟨_, _, rfl⟩ := Lower.emitPacked_eq_ok.mp accessed
      exact start.addMarked (access.isStraight_opcode _ _) (access.isMarked_opcode _ _)
        fun _ _ => .use resolved (by constructor)
  | classVar | global =>
      obtain ⟨index, between, named, rfl⟩ := lowerAccessAt_name_ok accessed
      obtain ⟨extended, small, found⟩ := start.addConstant rfl named
      refine extended.addMarked (access.isStraight_opcode _ _) (access.isMarked_opcode _ _)
        fun pool isLonger => .use resolved ?_
      constructor
      · exact small
      · exact found_in_longer found isLonger

theorem traced_name {name : String} (belongs : surroundings.Belongs session owner)
    (poolFits : unit.PoolFits)
    (lowered : lowerName surroundings name unit = .ok ((), grown)) :
    Traced session owner (Expr.var name).mentions unit grown := by
  unfold lowerName at lowered
  split at lowered
  · rename_i isSelf
    subst isSelf
    obtain rfl := Lower.emit_eq_ok.mp lowered
    exact (Traced.refl poolFits).add rfl rfl
  · rename_i notSelf
    split at lowered
    · cases lowered
    · rename_i notSuper
      split at lowered
      · rename_i isNil
        subst isNil
        exact traced_literal poolFits lowered
      · rename_i notNil
        split at lowered
        · rename_i isTrue
          subst isTrue
          exact traced_literal poolFits lowered
        · rename_i notTrue
          split at lowered
          · rename_i isFalse
            subst isFalse
            exact traced_literal poolFits lowered
          · rename_i notFalse
            have ordinary : isPseudoVariable name = false := by
              simp [isPseudoVariable, notSelf, notSuper, notNil, notTrue, notFalse]
            rw [Expr.mentions, ordinary]
            exact traced_access belongs poolFits lowered

theorem traced_emptyBody (poolFits : unit.PoolFits) (kind : BodyKind) :
    Traced session owner [] unit ((unit.add (emptyBodyPush kind)).add (.bare .return)) := by
  have start : Traced session owner [] unit unit := .refl poolFits
  cases kind with
  | topLevel | method | block =>
      exact (start.add rfl rfl).add rfl rfl

theorem Traced.addAfterStatement {mentions : List Mention}
    (traced : Traced session owner mentions unit grown) (isLast : Bool) :
    Traced session owner mentions unit (grown.add (afterStatement isLast)) := by
  cases isLast with
  | true | false =>
      exact traced.add rfl rfl

theorem Traced.addReturn {mentions : List Mention}
    (traced : Traced session owner mentions unit grown) (kind : BodyKind) :
    Traced session owner mentions unit (grown.add (.bare (returnOpcode kind))) := by
  cases kind with
  | topLevel | method | block =>
      exact traced.add rfl rfl

end Expressions

/-! ## Bodies -/

/-- What stands for `super` is no mention. -/
theorem mentions_of_isSuper {receiver : Expr} (isSuper : receiver.isSuper = true) :
    receiver.mentions = [] := by
  cases receiver with
  | super =>
      rw [Expr.mentions]
  | var name =>
      obtain rfl := of_decide_eq_true isSuper
      rw [Expr.mentions]
      rfl
  | literal _ | self | assign _ _ | send _ _ _ | cascade _ _ | block _ _ | array _
  | dictionary _ =>
      cases isSuper

mutual

theorem traced_expr {session : Session} {owner : Option Owner} {surroundings : Surroundings}
    {unit grown : CodeUnit} (belongs : surroundings.Belongs session owner)
    (poolFits : unit.PoolFits) (expr : Expr)
    (lowered : lowerExpr surroundings expr unit = .ok ((), grown)) :
    Traced session owner expr.mentions unit grown := by
  match expr with
  | .literal value =>
      rw [Expr.mentions]
      exact traced_literal poolFits lowered
  | .var name =>
      exact traced_name belongs poolFits lowered
  | .self =>
      obtain rfl := Lower.emit_eq_ok.mp lowered
      rw [Expr.mentions]
      exact (Traced.refl poolFits).add rfl rfl
  | .super =>
      cases lowered
  | .assign target value =>
      obtain ⟨_, between, valueLowered, stored⟩ := lowerExpr_assign_ok lowered
      rw [Expr.mentions]
      have first := traced_expr belongs poolFits value valueLowered
      exact first.trans (traced_access belongs first.poolFits stored)
  | .send receiver selector arguments =>
      obtain ⟨first, second, third, index, opcode, _, receiverCase, argumentsLowered, named,
        rfl⟩ := lowerExpr_send_ok lowered
      rw [Expr.mentions]
      rcases receiverCase with ⟨isSuper, _, rfl, rfl⟩ | ⟨_, receiverLowered, rfl⟩
      · have pushed : Traced session owner receiver.mentions unit (unit.add (.bare .pushSelf)) :=
          mentions_of_isSuper isSuper ▸ (Traced.refl poolFits).add rfl rfl
        have rest := traced_exprs belongs pushed.poolFits arguments argumentsLowered
        exact ((pushed.trans rest).addConstant rfl named).1.add rfl rfl
      · have pushed := traced_expr belongs poolFits receiver receiverLowered
        have rest := traced_exprs belongs pushed.poolFits arguments argumentsLowered
        exact ((pushed.trans rest).addConstant rfl named).1.add rfl rfl
  | .cascade receiver messages =>
      obtain ⟨between, receiverLowered, messagesLowered⟩ := lowerExpr_cascade_ok lowered
      rw [Expr.mentions]
      have first := traced_expr belongs poolFits receiver receiverLowered
      exact first.trans (traced_messages belongs first.poolFits messages messagesLowered)
  | .block parameters statements =>
      obtain ⟨_, body, between, index, bodyLowered, added, rfl⟩ := lowerExpr_block_ok lowered
      rw [Expr.mentions]
      have isBody : Body session owner statements body := by
        rw [(belongs.inBlock parameters).eta] at bodyLowered
        exact ⟨_, bodyLowered⟩
      exact traced_block poolFits isBody added
  | .array elements =>
      obtain ⟨between, elementsLowered, rfl⟩ := lowerExpr_array_ok lowered
      rw [Expr.mentions]
      exact (traced_exprs belongs poolFits elements elementsLowered).add rfl rfl
  | .dictionary entries =>
      obtain ⟨between, entriesLowered, rfl⟩ := lowerExpr_dictionary_ok lowered
      rw [Expr.mentions]
      exact (traced_entries belongs poolFits entries entriesLowered).add rfl rfl

theorem traced_exprs {session : Session} {owner : Option Owner} {surroundings : Surroundings}
    {unit grown : CodeUnit} (belongs : surroundings.Belongs session owner)
    (poolFits : unit.PoolFits) (exprs : List Expr)
    (lowered : lowerExprs surroundings exprs unit = .ok ((), grown)) :
    Traced session owner (mentionsInAll exprs) unit grown := by
  match exprs with
  | [] =>
      cases lowered
      exact .refl poolFits
  | expr :: rest =>
      obtain ⟨between, exprLowered, restLowered⟩ := lowerExprs_cons_ok lowered
      rw [mentionsInAll]
      have first := traced_expr belongs poolFits expr exprLowered
      exact first.trans (traced_exprs belongs first.poolFits rest restLowered)

theorem traced_messages {session : Session} {owner : Option Owner} {surroundings : Surroundings}
    {unit grown : CodeUnit} (belongs : surroundings.Belongs session owner)
    (poolFits : unit.PoolFits) (messages : List Message)
    (lowered : lowerMessages surroundings messages unit = .ok ((), grown)) :
    Traced session owner (mentionsInMessages messages) unit grown := by
  match messages with
  | [] =>
      cases lowered
      exact .refl poolFits
  | ⟨selector, arguments⟩ :: rest =>
      obtain ⟨first, second, index, _, argumentsLowered, named, restLowered⟩ :=
        lowerMessages_cons_ok lowered
      rw [mentionsInMessages]
      have duplicated : Traced session owner [] unit (unit.add (.bare .dup)) :=
        (Traced.refl poolFits).add rfl rfl
      have pushed := traced_exprs belongs duplicated.poolFits arguments argumentsLowered
      have sent : Traced session owner (mentionsInAll arguments) unit
          (second.add (.packed .send index arguments.length)) :=
        ((duplicated.trans pushed).addConstant rfl named).1.add rfl rfl
      have dropped : Traced session owner (mentionsInAll arguments) unit
          ((second.add (.packed .send index arguments.length)).add (.bare .pop)) :=
        sent.add rfl rfl
      exact dropped.trans (traced_messages belongs dropped.poolFits rest restLowered)

theorem traced_entries {session : Session} {owner : Option Owner} {surroundings : Surroundings}
    {unit grown : CodeUnit} (belongs : surroundings.Belongs session owner)
    (poolFits : unit.PoolFits) (entries : List Entry)
    (lowered : lowerEntries surroundings entries unit = .ok ((), grown)) :
    Traced session owner (mentionsInEntries entries) unit grown := by
  match entries with
  | [] =>
      cases lowered
      exact .refl poolFits
  | ⟨key, value⟩ :: rest =>
      obtain ⟨first, second, keyLowered, valueLowered, restLowered⟩ := lowerEntries_cons_ok lowered
      rw [mentionsInEntries]
      have ofKey := traced_expr belongs poolFits key keyLowered
      have ofValue := traced_expr belongs ofKey.poolFits value valueLowered
      exact (ofKey.trans ofValue).trans
        (traced_entries belongs ofValue.poolFits rest restLowered)

end

theorem traced_statements {session : Session} {owner : Option Owner}
    {surroundings : Surroundings} {unit grown : CodeUnit}
    (belongs : surroundings.Belongs session owner) (poolFits : unit.PoolFits) (leading : Bool)
    (statements : List Stmt)
    (lowered : lowerStatements surroundings leading statements unit = .ok ((), grown)) :
    Traced session owner (mentionsInBody statements) unit grown := by
  induction statements generalizing surroundings leading unit with
  | nil =>
      rw [mentionsInBody]
      cases leading with
      | false =>
          cases lowered
          exact .refl poolFits
      | true =>
          obtain rfl := emitEmptyBody_ok lowered
          exact traced_emptyBody poolFits surroundings.kind
  | cons statement rest inductionHypothesis =>
      cases statement with
      | declare names =>
          obtain ⟨_, extended, declared, restLowered⟩ := lowerStatements_declare_ok lowered
          exact inductionHypothesis (belongs.declareAll declared) poolFits true restLowered
      | define definition =>
          cases lowered
      | expr value =>
          obtain ⟨between, valueLowered, restLowered⟩ := lowerStatements_expr_ok lowered
          have pushed := traced_expr belongs poolFits value valueLowered
          have dropped := pushed.addAfterStatement rest.isEmpty
          exact dropped.trans (inductionHypothesis belongs dropped.poolFits false restLowered)
      | «return» value =>
          obtain ⟨between, valueLowered, restLowered⟩ := lowerStatements_return_ok lowered
          have pushed := traced_expr belongs poolFits value valueLowered
          have returned := pushed.addReturn surroundings.kind
          exact returned.trans (inductionHypothesis belongs returned.poolFits false restLowered)

/-- How many instructions before a position stand for mentions. -/
def CodeUnit.mentionsBefore (unit : CodeUnit) (ip : Nat) : Nat :=
  (unit.code.toList.take ip).countP Instruction.isMarked

/-- An element that is kept stands after those before it that are kept. -/
theorem getElem?_filter_countP {α : Type} {keep : α → Bool} {items : List α} {index : Nat}
    {item : α} (found : items[index]? = some item) (kept : keep item = true) :
    (items.filter keep)[(items.take index).countP keep]? = some item := by
  obtain ⟨inside, isItem⟩ := List.getElem?_eq_some_iff.mp found
  have split : items = items.take index ++ item :: items.drop (index + 1) := by
    rw [← isItem, List.getElem_cons_drop, List.take_append_drop]
  have filtered : items.filter keep =
      (items.take index).filter keep ++ item :: (items.drop (index + 1)).filter keep := by
    rw [← List.filter_cons_of_pos kept, ← List.filter_append, ← split]
  rw [filtered, List.countP_eq_length_filter, List.getElem?_append_right (Nat.le_refl _),
    Nat.sub_self]
  rfl

/-- Which mention an instruction stands for is a matter of counting. -/
theorem CodeUnit.exists_mention {unit : CodeUnit} {mentions : List Mention}
    {stands : Mention → Instruction → Prop} {ip : Nat} {instruction : Instruction}
    (together : List.Forall₂ stands mentions (unit.code.toList.filter Instruction.isMarked))
    (next : unit.code[ip]? = some instruction) (marked : instruction.isMarked = true) :
    ∃ mention, mentions[unit.mentionsBefore ip]? = some mention ∧ stands mention instruction := by
  have found : (unit.code.toList.filter Instruction.isMarked)[unit.mentionsBefore ip]? =
      some instruction := getElem?_filter_countP (Array.getElem?_toList.trans next) marked
  obtain ⟨inside, isInstruction⟩ := List.getElem?_eq_some_iff.mp found
  obtain ⟨sameLength, related⟩ := List.forall₂_iff_get.mp together
  have mentioned : unit.mentionsBefore ip < mentions.length := sameLength ▸ inside
  refine ⟨_, List.getElem?_eq_getElem mentioned, ?_⟩
  rw [← isInstruction]
  exact related _ mentioned inside

namespace Body

variable {session : Session} {owner : Option Owner} {statements : List Stmt} {unit : CodeUnit}

theorem traced (isBody : Body session owner statements unit) :
    Traced session owner (mentionsInBody statements) .empty unit := by
  obtain ⟨scopes, lowered⟩ := isBody
  exact traced_statements ⟨rfl, rfl⟩ CodeUnit.poolFits_empty true statements lowered

theorem isOf (isBody : Body session owner statements unit) :
    ∀ constant ∈ unit.constants, constant.IsOf session owner (mentionsInBody statements) := by
  obtain ⟨added, isPool, isOf⟩ := isBody.traced.constants
  rw [show unit.constants = added from isPool]
  exact isOf

theorem isStraight (isBody : Body session owner statements unit) :
    ∀ instruction ∈ unit.code.toList, instruction.isStraight = true := by
  obtain ⟨added, isCode, straight, _⟩ := isBody.traced.code
  rw [show unit.code.toList = added from isCode]
  exact straight

theorem standsFor (isBody : Body session owner statements unit) {ip : Nat}
    {instruction : Instruction} (next : unit.code[ip]? = some instruction)
    (marked : instruction.isMarked = true) :
    ∃ mention, (mentionsInBody statements)[unit.mentionsBefore ip]? = some mention ∧
      StandsFor session owner unit.constants mention instruction := by
  obtain ⟨added, isCode, _, standsFor⟩ := isBody.traced.code
  have together := standsFor unit.constants (List.prefix_refl _)
  rw [show added = unit.code.toList from isCode.symm] at together
  exact CodeUnit.exists_mention together next marked

/-- A block in the pool is the code of a block that is mentioned. -/
theorem block (isBody : Body session owner statements unit) {body : CodeUnit}
    (member : .block body ∈ unit.constants) :
    ∃ parameters inner, .block parameters inner ∈ mentionsInBody statements ∧
      Body session owner inner body := by
  rcases isBody.isOf _ member with impossible | ⟨parameters, inner, _, same, mentioned, isInner⟩
  · cases impossible
  · cases same
    exact ⟨parameters, inner, mentioned, isInner⟩

end Body

/-- The second body is the first one or that of a block inside it. -/
abbrev Inside : List Stmt → List Stmt → Prop :=
  Relation.ReflTransGen fun outer inner =>
    ∃ parameters, .block parameters inner ∈ mentionsInBody outer

/-! ## Assignments to globals -/

/-- The name of the global to which the instruction assigns. -/
def Instruction.storedGlobal? (constants : List Constant) (instruction : Instruction) :
    Option String :=
  if instruction.opcode = .storeGlobal then
    match selected constants instruction.operand with
    | some (.string name) => some name
    | _ => none
  else none

mutual

/-- The names of the globals to which the unit or a unit nested in it assigns. -/
def CodeUnit.storedGlobals : CodeUnit → List String
  | ⟨code, constants⟩ =>
    code.toList.filterMap (Instruction.storedGlobal? constants) ++ storedGlobalsInPool constants

/-- The same for the constants of a pool. -/
def storedGlobalsInPool : List Constant → List String
  | [] => []
  | constant :: rest => constant.storedGlobals ++ storedGlobalsInPool rest

/-- The same for a constant. -/
def Constant.storedGlobals : Constant → List String
  | .block body => body.storedGlobals
  | .classDescriptor ⟨_, _, _, _, methods, classMethods⟩ =>
    storedGlobalsInMethods methods ++ storedGlobalsInMethods classMethods
  | .int _ | .float _ | .string _ | .bool _ | .nil => []

/-- The same for the methods on one side of a class. -/
def storedGlobalsInMethods : List MethodDescriptor → List String
  | [] => []
  | ⟨_, _, body⟩ :: rest => body.storedGlobals ++ storedGlobalsInMethods rest

end

/-- No assignment in the unit is to a global with a reserved name. -/
def CodeUnit.Spares (reserved : String → Prop) (unit : CodeUnit) : Prop :=
  ∀ name ∈ unit.storedGlobals, ¬ reserved name

theorem storedGlobals_subset_pool {constants : List Constant} {constant : Constant}
    (member : constant ∈ constants) : constant.storedGlobals ⊆ storedGlobalsInPool constants := by
  induction constants with
  | nil =>
      exact (List.not_mem_nil member).elim
  | cons first rest inductionHypothesis =>
      rw [storedGlobalsInPool]
      rcases List.mem_cons.mp member with rfl | inRest
      · exact List.subset_append_left _ _
      · exact List.subset_append_of_subset_right _ (inductionHypothesis inRest)

theorem storedGlobals_subset_methods {methods : List MethodDescriptor}
    {method : MethodDescriptor} (member : method ∈ methods) :
    method.body.storedGlobals ⊆ storedGlobalsInMethods methods := by
  induction methods with
  | nil =>
      exact (List.not_mem_nil member).elim
  | cons first rest inductionHypothesis =>
      obtain ⟨selector, parameters, body⟩ := first
      rw [storedGlobalsInMethods]
      rcases List.mem_cons.mp member with rfl | inRest
      · exact List.subset_append_left _ _
      · exact List.subset_append_of_subset_right _ (inductionHypothesis inRest)

namespace CodeUnit.Spares

variable {reserved : String → Prop} {unit : CodeUnit}

theorem of_pool {constant : Constant} (spares : unit.Spares reserved)
    (member : constant ∈ unit.constants) :
    ∀ name ∈ constant.storedGlobals, ¬ reserved name := by
  intro name stored
  obtain ⟨code, constants⟩ := unit
  refine spares name ?_
  rw [CodeUnit.storedGlobals]
  exact List.mem_append_right _ (storedGlobals_subset_pool member stored)

theorem block {body : CodeUnit} (spares : unit.Spares reserved)
    (member : .block body ∈ unit.constants) : body.Spares reserved := by
  intro name stored
  refine spares.of_pool member name ?_
  rw [Constant.storedGlobals]
  exact stored

theorem method {descriptor : ClassDescriptor} {method : MethodDescriptor}
    (spares : unit.Spares reserved) (member : .classDescriptor descriptor ∈ unit.constants)
    (isMethod : method ∈ descriptor.methods ++ descriptor.classMethods) :
    method.body.Spares reserved := by
  intro name stored
  refine spares.of_pool member name ?_
  obtain ⟨_, _, _, _, methods, classMethods⟩ := descriptor
  rw [Constant.storedGlobals]
  rcases List.mem_append.mp isMethod with onInstanceSide | onClassSide
  · exact List.mem_append_left _ (storedGlobals_subset_methods onInstanceSide stored)
  · exact List.mem_append_right _ (storedGlobals_subset_methods onClassSide stored)

theorem not_reserved {instruction : Instruction} {name : String} (spares : unit.Spares reserved)
    (member : instruction ∈ unit.code.toList) (isStore : instruction.opcode = .storeGlobal)
    (selects : Instruction.selected unit.constants instruction.operand = some (.string name)) :
    ¬ reserved name := by
  obtain ⟨code, constants⟩ := unit
  refine spares name ?_
  rw [CodeUnit.storedGlobals]
  refine List.mem_append_left _ (List.mem_filterMap.mpr ⟨instruction, member, ?_⟩)
  unfold Instruction.storedGlobal?
  rw [if_pos isStore, selects]

end CodeUnit.Spares

end Missive
