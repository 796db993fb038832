import Missive.Compile.Lowering
import Missive.Proofs.Answers

/-!
# Lowering taken apart

What has happened when a piece of a program was lowered: which pieces were lowered before it, from
which unit to which, and what was added in the end.  There is one such lemma for each form of a
program.

A pool of constants never holds more than an operand can address.
-/

namespace Missive

namespace CodeUnit

/-- The unit with one more instruction. -/
def add (unit : CodeUnit) (instruction : Instruction) : CodeUnit :=
  { unit with code := unit.code.push instruction }

/-- Every constant of the pool can be addressed by an operand. -/
def PoolFits (unit : CodeUnit) : Prop := unit.constants.length ≤ Instruction.maxPackedIndex + 1

theorem poolFits_empty : CodeUnit.empty.PoolFits := Nat.zero_le _

theorem PoolFits.add {unit : CodeUnit} (poolFits : unit.PoolFits) (instruction : Instruction) :
    (unit.add instruction).PoolFits := poolFits

end CodeUnit

theorem Instruction.pack_eq_ok {index count : Nat} {operand : Int32} :
    pack index count = .ok operand ↔
      count ≤ maxPackedCount ∧ index ≤ maxPackedIndex ∧ operand = packedOperand index count := by
  unfold pack
  by_cases many : maxPackedCount < count
  · rw [if_pos many]
    exact iff_of_false nofun fun fits => Nat.not_lt_of_le fits.1 many
  · rw [if_neg many]
    by_cases large : maxPackedIndex < index
    · rw [if_pos large]
      exact iff_of_false nofun fun fits => Nat.not_lt_of_le fits.2.1 large
    · rw [if_neg large]
      constructor
      · rintro ⟨⟩
        exact ⟨Nat.le_of_not_lt many, Nat.le_of_not_lt large, rfl⟩
      · rintro ⟨_, _, rfl⟩
        rfl

namespace Lower

variable {α β : Type} {unit grown : CodeUnit}

theorem bind_eq_ok {x : Lower α} {f : α → Lower β} {b : β} :
    (x >>= f) unit = .ok (b, grown) ↔
      ∃ a between, x unit = .ok (a, between) ∧ f a between = .ok (b, grown) := by
  change (x unit >>= fun reached => f reached.1 reached.2) = .ok (b, grown) ↔ _
  rw [Except.bind_eq_ok]
  exact Prod.exists

theorem lift_eq_ok {x : Except CompileError α} {a : α} :
    (liftM x : Lower α) unit = .ok (a, grown) ↔ x = .ok a ∧ unit = grown := by
  cases x with
  | error error =>
      constructor
      · intro impossible
        cases impossible
      · rintro ⟨impossible, _⟩
        cases impossible
  | ok found =>
      constructor
      · intro same
        cases same
        exact ⟨rfl, rfl⟩
      · rintro ⟨same, rfl⟩
        cases same
        rfl

theorem emit_eq_ok {instruction : Instruction} :
    emit instruction unit = .ok ((), grown) ↔ grown = unit.add instruction := by
  constructor
  · intro same
    cases same
    rfl
  · rintro rfl
    rfl

theorem emitPacked_eq_ok {opcode : Opcode} {index count : Nat} :
    emitPacked opcode index count unit = .ok ((), grown) ↔
      count ≤ Instruction.maxPackedCount ∧ index ≤ Instruction.maxPackedIndex ∧
        grown = unit.add (.packed opcode index count) := by
  unfold emitPacked
  cases packed : Instruction.pack index count with
  | error cause =>
      refine iff_of_false nofun ?_
      rintro ⟨few, small, _⟩
      rw [Instruction.pack_eq_ok.mpr ⟨few, small, rfl⟩] at packed
      cases packed
  | ok operand =>
      obtain ⟨few, small, rfl⟩ := Instruction.pack_eq_ok.mp packed
      exact emit_eq_ok.trans ⟨fun same => ⟨few, small, same⟩, fun fits => fits.2.2⟩

/-- A check that was passed on the way. -/
theorem check_eq_ok {condition : Prop} [Decidable condition] {error : CompileError} {rest : Lower α}
    {f : β → Lower α} {a : α} :
    (if condition then throw error >>= f else rest) unit = .ok (a, grown) ↔
      ¬ condition ∧ rest unit = .ok (a, grown) := by
  by_cases holds : condition
  · simp only [holds, if_true, not_true, false_and, iff_false]
    intro impossible
    cases impossible
  · simp only [holds, if_false, not_false_eq_true, true_and]

end Lower

/-! ## Constants -/

theorem eq_of_sameLiteral {constant other : Constant}
    (same : constant.sameLiteral other = true) : constant = other := by
  cases constant <;> cases other <;> simp_all [Constant.sameLiteral]

theorem addConstant_eq (constant : Constant) (unit : CodeUnit) :
    addConstant constant unit =
      match unit.constants.findIdx? constant.sameLiteral with
      | some index => .ok (index, unit)
      | none =>
        if Instruction.maxPackedIndex < unit.constants.length then .error .tooManyConstants
        else
          .ok (unit.constants.length,
            { unit with constants := unit.constants ++ [constant] }) := by
  have opened : addConstant constant unit =
      (match unit.constants.findIdx? constant.sameLiteral with
        | some index => pure index
        | none => do
          if Instruction.maxPackedIndex < unit.constants.length then throw .tooManyConstants
          set { unit with constants := unit.constants ++ [constant] }
          pure unit.constants.length : Lower Nat) unit := rfl
  rw [opened]
  cases unit.constants.findIdx? constant.sameLiteral with
  | some index =>
      rfl
  | none =>
      by_cases full : Instruction.maxPackedIndex < unit.constants.length
      · simp only [full, if_true]
        rfl
      · simp only [full, if_false]
        rfl

/-- A constant shares the place of one that is the same, or it comes last in the pool. -/
theorem addConstant_eq_ok {constant : Constant} {unit grown : CodeUnit} {index : Nat} :
    addConstant constant unit = .ok (index, grown) ↔
      (unit.constants.findIdx? constant.sameLiteral = some index ∧ grown = unit) ∨
      (unit.constants.findIdx? constant.sameLiteral = none ∧
        unit.constants.length ≤ Instruction.maxPackedIndex ∧ index = unit.constants.length ∧
        grown = { unit with constants := unit.constants ++ [constant] }) := by
  rw [addConstant_eq]
  cases unit.constants.findIdx? constant.sameLiteral with
  | some shared =>
      constructor
      · rintro ⟨⟩
        exact Or.inl ⟨rfl, rfl⟩
      · rintro (⟨⟨⟩, rfl⟩ | ⟨⟨⟩, _⟩)
        rfl
  | none =>
      by_cases full : Instruction.maxPackedIndex < unit.constants.length
      · simp only [full, if_true]
        refine iff_of_false nofun ?_
        rintro (⟨⟨⟩, _⟩ | ⟨_, enough, _⟩)
        exact Nat.not_lt_of_le enough full
      · simp only [full, if_false]
        constructor
        · rintro ⟨⟩
          exact Or.inr ⟨trivial, Nat.le_of_not_lt full, rfl, rfl⟩
        · rintro (⟨⟨⟩, _⟩ | ⟨_, _, rfl, rfl⟩)
          rfl

/-- The constant stands at the index, and the pool has grown by nothing but this constant. -/
theorem addConstant_ok {constant : Constant} {unit grown : CodeUnit} {index : Nat}
    (fits : unit.PoolFits) (added : addConstant constant unit = .ok (index, grown)) :
    index ≤ Instruction.maxPackedIndex ∧ grown.constants[index]? = some constant ∧
      grown.PoolFits ∧ grown.code = unit.code ∧
      (grown.constants = unit.constants ∨ grown.constants = unit.constants ++ [constant]) := by
  unfold CodeUnit.PoolFits at fits ⊢
  rcases addConstant_eq_ok.mp added with ⟨found, rfl⟩ | ⟨_, enough, rfl, rfl⟩
  · obtain ⟨inside, same, _⟩ := List.findIdx?_eq_some_iff_getElem.mp found
    refine ⟨by omega, ?_, fits, rfl, Or.inl rfl⟩
    rw [List.getElem?_eq_getElem inside, eq_of_sameLiteral same]
  · refine ⟨enough, ?_, ?_, rfl, Or.inr rfl⟩
    · simp
    · dsimp only
      rw [List.length_append, List.length_singleton]
      omega

/-- A constant keeps its place in a pool that grows. -/
theorem found_in_longer {constants pool : List Constant} {index : Nat} {constant : Constant}
    (found : constants[index]? = some constant) (isLonger : constants <+: pool) :
    pool[index]? = some constant := by
  obtain ⟨rest, rfl⟩ := isLonger
  obtain ⟨inside, _⟩ := List.getElem?_eq_some_iff.mp found
  rw [List.getElem?_append_left inside, found]

theorem checkArity_ok {selector : Selector} {given : Nat}
    (checked : checkArity selector given = .ok ()) :
    given ≤ Instruction.maxPackedCount ∧ selector.arity = given := by
  unfold checkArity at checked
  split at checked
  · cases checked
  · split at checked
    · cases checked
    · rename_i few notDifferent
      exact ⟨Nat.le_of_not_lt few, Decidable.not_not.mp notDifferent⟩

/-! ## Expressions -/

section Expressions

variable {surroundings : Surroundings} {unit grown : CodeUnit}

theorem lowerExpr_assign_ok {target : String} {value : Expr}
    (lowered : lowerExpr surroundings (.assign target value) unit = .ok ((), grown)) :
    isPseudoVariable target = false ∧ ∃ between,
      lowerExpr surroundings value unit = .ok ((), between) ∧
      lowerAccess surroundings .store target between = .ok ((), grown) := by
  obtain ⟨assignable, lowered⟩ := Lower.check_eq_ok.mp lowered
  obtain ⟨_, between, valueLowered, stored⟩ := Lower.bind_eq_ok.mp lowered
  exact ⟨Bool.eq_false_iff.mpr assignable, between, valueLowered, stored⟩

theorem lowerExpr_send_ok {receiver : Expr} {selector : Selector} {arguments : List Expr}
    (lowered : lowerExpr surroundings (.send receiver selector arguments) unit = .ok ((), grown)) :
    ∃ first second third index opcode, checkArity selector arguments.length = .ok () ∧
      ((receiver.isSuper = true ∧ surroundings.owner.isSome = true ∧
          first = unit.add (.bare .pushSelf) ∧ opcode = .superSend) ∨
        (receiver.isSuper = false ∧ lowerExpr surroundings receiver unit = .ok ((), first) ∧
          opcode = .send)) ∧
      lowerExprs surroundings arguments first = .ok ((), second) ∧
      addName selector second = .ok (index, third) ∧
      grown = third.add (.packed opcode index arguments.length) := by
  obtain ⟨_, _, checked, lowered⟩ := Lower.bind_eq_ok.mp lowered
  obtain ⟨arityFits, rfl⟩ := Lower.lift_eq_ok.mp checked
  dsimp only at lowered
  split at lowered
  · rename_i isSuper
    obtain ⟨hasOwner, lowered⟩ := Lower.check_eq_ok.mp lowered
    obtain ⟨_, first, pushed, lowered⟩ := Lower.bind_eq_ok.mp lowered
    obtain ⟨_, second, argumentsLowered, lowered⟩ := Lower.bind_eq_ok.mp lowered
    obtain ⟨index, third, named, emitted⟩ := Lower.bind_eq_ok.mp lowered
    refine ⟨first, second, third, index, .superSend, arityFits, Or.inl ⟨isSuper, ?_, ?_, rfl⟩,
      argumentsLowered, named, (Lower.emitPacked_eq_ok.mp emitted).2.2⟩
    · rw [← Option.not_isNone, Bool.eq_false_iff.mpr hasOwner]
      rfl
    · exact Lower.emit_eq_ok.mp pushed
  · rename_i notSuper
    obtain ⟨_, first, receiverLowered, lowered⟩ := Lower.bind_eq_ok.mp lowered
    obtain ⟨_, second, argumentsLowered, lowered⟩ := Lower.bind_eq_ok.mp lowered
    obtain ⟨index, third, named, emitted⟩ := Lower.bind_eq_ok.mp lowered
    exact ⟨first, second, third, index, .send, arityFits,
      Or.inr ⟨Bool.eq_false_iff.mpr notSuper, receiverLowered, rfl⟩, argumentsLowered, named,
      (Lower.emitPacked_eq_ok.mp emitted).2.2⟩

theorem lowerExpr_cascade_ok {receiver : Expr} {messages : List Message}
    (lowered : lowerExpr surroundings (.cascade receiver messages) unit = .ok ((), grown)) :
    ∃ between, lowerExpr surroundings receiver unit = .ok ((), between) ∧
      lowerMessages surroundings messages between = .ok ((), grown) := by
  obtain ⟨_, lowered⟩ := Lower.check_eq_ok.mp lowered
  obtain ⟨_, lowered⟩ := Lower.check_eq_ok.mp lowered
  obtain ⟨_, between, receiverLowered, messagesLowered⟩ := Lower.bind_eq_ok.mp lowered
  exact ⟨between, receiverLowered, messagesLowered⟩

/-- The surroundings in the body of a block. -/
def Surroundings.inBlock (surroundings : Surroundings) (parameters : List String) : Surroundings :=
  surroundings.enter (Scope.ofParameters .block parameters)

theorem lowerExpr_block_ok {parameters : List String} {statements : List Stmt}
    (lowered : lowerExpr surroundings (.block parameters statements) unit = .ok ((), grown)) :
    parameters.length ≤ Instruction.maxPackedCount ∧ ∃ body between index,
      lowerStatements (surroundings.inBlock parameters) true statements .empty = .ok ((), body) ∧
      addConstant (.block body) unit = .ok (index, between) ∧
      grown = between.add (.packed .makeClosure index parameters.length) := by
  obtain ⟨few, lowered⟩ := Lower.check_eq_ok.mp lowered
  obtain ⟨⟨_, body⟩, _, ran, lowered⟩ := Lower.bind_eq_ok.mp lowered
  obtain ⟨bodyLowered, rfl⟩ := Lower.lift_eq_ok.mp ran
  obtain ⟨index, between, added, emitted⟩ := Lower.bind_eq_ok.mp lowered
  exact ⟨Nat.le_of_not_lt few, body, between, index, bodyLowered, added,
    (Lower.emitPacked_eq_ok.mp emitted).2.2⟩

theorem lowerExpr_array_ok {elements : List Expr}
    (lowered : lowerExpr surroundings (.array elements) unit = .ok ((), grown)) :
    ∃ between, lowerExprs surroundings elements unit = .ok ((), between) ∧
      grown = between.add (.indexed .makeArray elements.length) := by
  obtain ⟨_, between, elementsLowered, emitted⟩ := Lower.bind_eq_ok.mp lowered
  exact ⟨between, elementsLowered, Lower.emit_eq_ok.mp emitted⟩

theorem lowerExpr_dictionary_ok {entries : List Entry}
    (lowered : lowerExpr surroundings (.dictionary entries) unit = .ok ((), grown)) :
    ∃ between, lowerEntries surroundings entries unit = .ok ((), between) ∧
      grown = between.add (.indexed .makeDictionary entries.length) := by
  obtain ⟨_, between, entriesLowered, emitted⟩ := Lower.bind_eq_ok.mp lowered
  exact ⟨between, entriesLowered, Lower.emit_eq_ok.mp emitted⟩

theorem lowerExprs_cons_ok {expr : Expr} {rest : List Expr}
    (lowered : lowerExprs surroundings (expr :: rest) unit = .ok ((), grown)) :
    ∃ between, lowerExpr surroundings expr unit = .ok ((), between) ∧
      lowerExprs surroundings rest between = .ok ((), grown) := by
  obtain ⟨_, between, exprLowered, restLowered⟩ := Lower.bind_eq_ok.mp lowered
  exact ⟨between, exprLowered, restLowered⟩

theorem lowerMessages_cons_ok {selector : Selector} {arguments : List Expr} {rest : List Message}
    (lowered : lowerMessages surroundings (⟨selector, arguments⟩ :: rest) unit = .ok ((), grown)) :
    ∃ first second index, checkArity selector arguments.length = .ok () ∧
      lowerExprs surroundings arguments (unit.add (.bare .dup)) = .ok ((), first) ∧
      addName selector first = .ok (index, second) ∧
      lowerMessages surroundings rest
        ((second.add (.packed .send index arguments.length)).add (.bare .pop)) =
          .ok ((), grown) := by
  obtain ⟨_, _, checked, lowered⟩ := Lower.bind_eq_ok.mp lowered
  obtain ⟨arityFits, rfl⟩ := Lower.lift_eq_ok.mp checked
  obtain ⟨_, _, duplicated, lowered⟩ := Lower.bind_eq_ok.mp lowered
  obtain rfl := Lower.emit_eq_ok.mp duplicated
  obtain ⟨_, first, argumentsLowered, lowered⟩ := Lower.bind_eq_ok.mp lowered
  obtain ⟨index, second, named, lowered⟩ := Lower.bind_eq_ok.mp lowered
  obtain ⟨_, _, sent, lowered⟩ := Lower.bind_eq_ok.mp lowered
  obtain ⟨_, _, rfl⟩ := Lower.emitPacked_eq_ok.mp sent
  obtain ⟨_, _, dropped, restLowered⟩ := Lower.bind_eq_ok.mp lowered
  obtain rfl := Lower.emit_eq_ok.mp dropped
  exact ⟨first, second, index, arityFits, argumentsLowered, named, restLowered⟩

theorem lowerEntries_cons_ok {key value : Expr} {rest : List Entry}
    (lowered : lowerEntries surroundings (⟨key, value⟩ :: rest) unit = .ok ((), grown)) :
    ∃ first second, lowerExpr surroundings key unit = .ok ((), first) ∧
      lowerExpr surroundings value first = .ok ((), second) ∧
      lowerEntries surroundings rest second = .ok ((), grown) := by
  obtain ⟨_, first, keyLowered, lowered⟩ := Lower.bind_eq_ok.mp lowered
  obtain ⟨_, second, valueLowered, restLowered⟩ := Lower.bind_eq_ok.mp lowered
  exact ⟨first, second, keyLowered, valueLowered, restLowered⟩

end Expressions

/-! ## Variables -/

/-- Uses the variable at a location. -/
def lowerAccessAt (access : Access) (name : String) (location : Location) : Lower Unit :=
  let opcode := access.opcode location
  match location with
  | .slot index | .field index => emit (.indexed opcode index)
  | .outer slot depth => emitPacked opcode slot depth
  | .classVar | .global => do emit (.indexed opcode (← addName name))

theorem lowerAccess_ok {surroundings : Surroundings} {access : Access} {name : String}
    {unit grown : CodeUnit}
    (lowered : lowerAccess surroundings access name unit = .ok ((), grown)) :
    ∃ location, surroundings.resolve name = .ok location ∧
      lowerAccessAt access name location unit = .ok ((), grown) := by
  unfold lowerAccess at lowered
  obtain ⟨location, _, resolved, lowered⟩ := Lower.bind_eq_ok.mp lowered
  obtain ⟨isLocation, rfl⟩ := Lower.lift_eq_ok.mp resolved
  exact ⟨location, isLocation, lowered⟩

theorem lowerAccessAt_name_ok {opcode : Opcode} {name : String} {unit grown : CodeUnit}
    (lowered : (do emit (.indexed opcode (← addName name)) : Lower Unit) unit = .ok ((), grown)) :
    ∃ index between, addName name unit = .ok (index, between) ∧
      grown = between.add (.indexed opcode index) := by
  obtain ⟨index, between, named, emitted⟩ := Lower.bind_eq_ok.mp lowered
  exact ⟨index, between, named, Lower.emit_eq_ok.mp emitted⟩

/-- A variable is found in one of the bodies that are searched. -/
theorem findLocal_lt {name : String} {start slot depth : Nat} {scopes : List Scope}
    (found : findLocal name start scopes = some (slot, depth)) :
    start ≤ depth ∧ depth < start + scopes.length := by
  induction scopes generalizing start with
  | nil =>
      cases found
  | cons scope outer inductionHypothesis =>
      unfold findLocal at found
      rw [List.length_cons]
      split at found
      · cases found
        omega
      · split at found
        · have further := inductionHypothesis found
          omega
        · cases found

namespace Surroundings

variable {surroundings : Surroundings} {name : String}

theorem resolve_eq_outer_iff {slot depth : Nat} :
    surroundings.resolve name = .ok (.outer slot depth) ↔
      findLocal name 0 surroundings.scopes = some (slot, depth) ∧
        0 < depth ∧ depth ≤ Instruction.maxPackedCount := by
  unfold resolve
  rcases findLocal name 0 surroundings.scopes with _ | ⟨place, _ | further⟩
  · refine iff_of_false (fun resolved => ?_) nofun
    cases isOwner : surroundings.owner with
    | none =>
        rw [isOwner] at resolved
        cases resolved
    | some owner =>
        rw [isOwner] at resolved
        have located := Except.ok.inj resolved
        unfold Owner.locate at located
        split at located
        · cases located
        · split at located <;> cases located
  · refine iff_of_false nofun ?_
    rintro ⟨⟨⟩, positive, _⟩
    exact Nat.lt_irrefl 0 positive
  · by_cases near : further + 1 ≤ Instruction.maxPackedCount
    · simp only [Nat.not_lt.mpr near, if_false]
      constructor
      · rintro ⟨⟩
        exact ⟨rfl, Nat.succ_pos further, near⟩
      · rintro ⟨⟨⟩, _⟩
        rfl
    · simp only [Nat.lt_of_not_le near, if_true]
      refine iff_of_false nofun ?_
      rintro ⟨⟨⟩, _, isNear⟩
      exact near isNear

/-- Outside of its local variables, a body of a class has fields and class variables. -/
theorem owner_of_resolve {location : Location}
    (resolved : surroundings.resolve name = .ok location)
    (ofClass : location = .classVar ∨ ∃ index, location = .field index) :
    ∃ owner, surroundings.owner = some owner ∧
      location = owner.locate surroundings.session name := by
  unfold resolve at resolved
  split at resolved
  · cases resolved
    rcases ofClass with impossible | ⟨_, impossible⟩ <;> cases impossible
  · split at resolved
    · cases resolved
    · cases resolved
      rcases ofClass with impossible | ⟨_, impossible⟩ <;> cases impossible
  · split at resolved
    · rename_i owner isOwner
      cases resolved
      exact ⟨owner, isOwner, rfl⟩
    · cases resolved
      rcases ofClass with impossible | ⟨_, impossible⟩ <;> cases impossible

end Surroundings

theorem Owner.classSide_of_field {owner : Owner} {session : Session} {name : String} {index : Nat}
    (located : Location.field index = owner.locate session name) : owner.classSide = false := by
  unfold Owner.locate at located
  cases side : owner.classSide with
  | false =>
      rfl
  | true =>
      rw [side, if_pos rfl] at located
      split at located
      · rename_i impossible
        cases impossible
      · split at located <;> cases located

/-! ## Bodies -/

section Bodies

variable {surroundings : Surroundings} {leading : Bool} {unit grown : CodeUnit}

/-- What follows the value of a statement. -/
def afterStatement (isLast : Bool) : Instruction := .bare (if isLast then .return else .pop)

theorem lowerStatements_declare_ok {names : List String} {rest : List Stmt}
    (lowered : lowerStatements surroundings leading (.declare names :: rest) unit =
      .ok ((), grown)) :
    leading = true ∧ ∃ extended, surroundings.declareAll names = .ok extended ∧
      lowerStatements extended true rest unit = .ok ((), grown) := by
  cases leading with
  | false =>
      cases lowered
  | true =>
      obtain ⟨extended, _, declared, restLowered⟩ := Lower.bind_eq_ok.mp lowered
      obtain ⟨isExtended, rfl⟩ := Lower.lift_eq_ok.mp declared
      exact ⟨rfl, extended, isExtended, restLowered⟩

theorem lowerStatements_expr_ok {value : Expr} {rest : List Stmt}
    (lowered : lowerStatements surroundings leading (.expr value :: rest) unit = .ok ((), grown)) :
    ∃ between, lowerExpr surroundings value unit = .ok ((), between) ∧
      lowerStatements surroundings false rest (between.add (afterStatement rest.isEmpty)) =
        .ok ((), grown) := by
  obtain ⟨_, between, valueLowered, lowered⟩ := Lower.bind_eq_ok.mp lowered
  obtain ⟨_, _, emitted, restLowered⟩ := Lower.bind_eq_ok.mp lowered
  obtain rfl := Lower.emit_eq_ok.mp emitted
  exact ⟨between, valueLowered, restLowered⟩

theorem lowerStatements_return_ok {value : Expr} {rest : List Stmt}
    (lowered : lowerStatements surroundings leading (.return value :: rest) unit =
      .ok ((), grown)) :
    ∃ between, lowerExpr surroundings value unit = .ok ((), between) ∧
      lowerStatements surroundings false rest
        (between.add (.bare (returnOpcode surroundings.kind))) = .ok ((), grown) := by
  obtain ⟨_, between, valueLowered, lowered⟩ := Lower.bind_eq_ok.mp lowered
  obtain ⟨_, _, emitted, restLowered⟩ := Lower.bind_eq_ok.mp lowered
  obtain rfl := Lower.emit_eq_ok.mp emitted
  exact ⟨between, valueLowered, restLowered⟩

/-- What a body without statements answers. -/
def emptyBodyPush (kind : BodyKind) : Instruction :=
  .bare (if kind = .method then .pushSelf else .pushNil)

theorem emitEmptyBody_ok {kind : BodyKind} (lowered : emitEmptyBody kind unit = .ok ((), grown)) :
    grown = (unit.add (emptyBodyPush kind)).add (.bare .return) := by
  cases kind with
  | topLevel | method | block =>
      cases lowered
      rfl

end Bodies

/-! ## Classes -/

section Classes

variable {session extended : Session}

theorem lowerMethod_eq_ok {owner : Owner} {method : MethodDef} {descriptor : MethodDescriptor} :
    lowerMethod session owner method = .ok descriptor ↔
      ∃ body, checkArity method.selector method.parameters.length = .ok () ∧
        lowerStatements ⟨session, [Scope.ofParameters .method method.parameters], some owner⟩ true
          method.body .empty = .ok ((), body) ∧
        descriptor = ⟨method.selector, method.parameters, body⟩ := by
  constructor
  · intro lowered
    obtain ⟨⟨⟩, checked, lowered⟩ := Except.bind_eq_ok.mp lowered
    obtain ⟨⟨⟨⟩, body⟩, bodyLowered, wrapped⟩ := Except.bind_eq_ok.mp lowered
    cases wrapped
    exact ⟨body, checked, bodyLowered, rfl⟩
  · rintro ⟨body, checked, bodyLowered, rfl⟩
    exact Except.bind_eq_ok.mpr ⟨(), checked, Except.bind_eq_ok.mpr ⟨((), body), bodyLowered, rfl⟩⟩

theorem extendFields_ok {className : String} {fields added result : List String}
    (extended : extendFields className fields added = .ok result) : result = fields ++ added := by
  induction added generalizing fields with
  | nil =>
      cases extended
      exact (List.append_nil _).symm
  | cons field rest inductionHypothesis =>
      unfold extendFields at extended
      split at extended
      · cases extended
      · rw [inductionHypothesis extended, List.append_assoc, List.singleton_append]

theorem shapeOf_eq_ok {definition : ClassDef} {shape : Shape} :
    shapeOf session definition = .ok shape ↔
      (∀ superclass, definition.superclass = some superclass →
        (session.shape? superclass).isSome = true) ∧
      ∃ fields, extendFields definition.name
          (((definition.superclass.bind session.shape?).map Shape.fields).getD [])
          definition.fields = .ok fields ∧
        shape = ⟨definition.superclass, fields, definition.classVars⟩ := by
  have wrapped : ∀ inherited, (do
      let fields ← extendFields definition.name inherited definition.fields
      pure ⟨definition.superclass, fields, definition.classVars⟩) = Except.ok shape ↔
        ∃ fields, extendFields definition.name inherited definition.fields = .ok fields ∧
          shape = ⟨definition.superclass, fields, definition.classVars⟩ := by
    intro inherited
    refine Except.bind_eq_ok.trans (exists_congr fun fields => and_congr_right fun _ => ?_)
    exact ⟨fun isShape => (Except.ok.inj isShape).symm, congrArg Except.ok ∘ Eq.symm⟩
  unfold shapeOf
  cases isSuperclass : definition.superclass with
  | none =>
      rw [isSuperclass] at wrapped
      exact (wrapped []).trans (and_iff_right nofun).symm
  | some superclass =>
      rw [isSuperclass] at wrapped
      simp only [Option.bind_some, Option.some.injEq, forall_eq']
      cases session.shape? superclass with
      | none =>
          exact iff_of_false nofun fun known => Bool.noConfusion known.1
      | some inherited =>
          exact (wrapped inherited.fields).trans (and_iff_right rfl).symm

theorem lowerMethods_eq_ok {definition : ClassDef} {fields : List String}
    {descriptor : ClassDescriptor} :
    lowerMethods session definition fields = .ok descriptor ↔
      ∃ methods classMethods,
        definition.methods.mapM (lowerMethod session ⟨definition.name, fields, false⟩) =
          .ok methods ∧
        definition.classMethods.mapM (lowerMethod session ⟨definition.name, fields, true⟩) =
          .ok classMethods ∧
        descriptor = ⟨definition.name, definition.superclass, definition.fields,
          definition.classVars, methods, classMethods⟩ := by
  constructor
  · intro lowered
    obtain ⟨methods, ofMethods, lowered⟩ := Except.bind_eq_ok.mp lowered
    obtain ⟨classMethods, ofClassMethods, wrapped⟩ := Except.bind_eq_ok.mp lowered
    cases wrapped
    exact ⟨methods, classMethods, ofMethods, ofClassMethods, rfl⟩
  · rintro ⟨methods, classMethods, ofMethods, ofClassMethods, rfl⟩
    exact Except.bind_eq_ok.mpr ⟨methods, ofMethods,
      Except.bind_eq_ok.mpr ⟨classMethods, ofClassMethods, rfl⟩⟩

theorem lowerClass_eq_ok {definition : ClassDef} {descriptor : ClassDescriptor} :
    lowerClass session definition = (extended, .ok descriptor) ↔
      ∃ shape, shapeOf session definition = .ok shape ∧
        extended = session.defineClass definition.name shape ∧
        lowerMethods extended definition shape.fields = .ok descriptor := by
  unfold lowerClass
  cases isShape : shapeOf session definition with
  | error error =>
      constructor
      · intro impossible
        cases impossible
      · rintro ⟨_, impossible, _⟩
        cases impossible
  | ok shape =>
      constructor
      · intro lowered
        obtain ⟨rfl, methodsLowered⟩ := Prod.mk.inj lowered
        exact ⟨shape, rfl, rfl, methodsLowered⟩
      · rintro ⟨_, ⟨⟩, rfl, methodsLowered⟩
        exact Prod.ext rfl methodsLowered

end Classes

/-! ## Programs -/

section Programs

variable {leading : Bool} {session final : Session} {unit grown : CodeUnit}

theorem lowerProgramFrom_nil_ok
    (lowered : lowerProgramFrom leading session unit [] = (final, .ok grown)) :
    (leading = false ∧ grown = unit) ∨
      (leading = true ∧ grown = (unit.add (emptyBodyPush .topLevel)).add (.bare .return)) := by
  cases leading with
  | false =>
      cases lowered
      exact Or.inl ⟨rfl, rfl⟩
  | true =>
      cases lowered
      exact Or.inr ⟨rfl, rfl⟩

theorem lowerProgramFrom_declare_ok {names : List String} {rest : Program}
    (lowered : lowerProgramFrom leading session unit (.declare names :: rest) =
      (final, .ok grown)) :
    leading = true ∧ ∃ extended, session.declareAll names = (extended, .ok ()) ∧
      lowerProgramFrom true extended unit rest = (final, .ok grown) := by
  unfold lowerProgramFrom at lowered
  cases leading with
  | false =>
      cases lowered
  | true =>
      rw [if_pos rfl] at lowered
      split at lowered
      · rename_i extended _ declared
        exact ⟨rfl, extended, declared, lowered⟩
      · cases lowered

theorem lowerProgramFrom_define_ok {definition : ClassDef} {rest : Program}
    (lowered : lowerProgramFrom leading session unit (.define definition :: rest) =
      (final, .ok grown)) :
    ∃ extended descriptor index between,
      lowerClass session definition = (extended, .ok descriptor) ∧
      addConstant (.classDescriptor descriptor) unit = .ok (index, between) ∧
      lowerProgramFrom false extended
        ((between.add (.indexed .defineClass index)).add (afterStatement rest.isEmpty)) rest =
        (final, .ok grown) := by
  unfold lowerProgramFrom at lowered
  split at lowered
  · cases lowered
  · rename_i extended descriptor classLowered
    split at lowered
    · rename_i emitted
      obtain ⟨_, _, classEmitted, afterwards⟩ := Lower.bind_eq_ok.mp emitted
      obtain rfl := Lower.emit_eq_ok.mp afterwards
      obtain ⟨index, between, added, defined⟩ := Lower.bind_eq_ok.mp classEmitted
      obtain rfl := Lower.emit_eq_ok.mp defined
      exact ⟨extended, descriptor, index, between, classLowered, added, lowered⟩
    · cases lowered

theorem lowerProgramFrom_expr_ok {value : Expr} {rest : Program}
    (lowered : lowerProgramFrom leading session unit (.expr value :: rest) = (final, .ok grown)) :
    ∃ between, lowerExpr session.topLevel value unit = .ok ((), between) ∧
      lowerProgramFrom false session (between.add (afterStatement rest.isEmpty)) rest =
        (final, .ok grown) := by
  unfold lowerProgramFrom at lowered
  split at lowered
  · rename_i emitted
    obtain ⟨_, between, valueLowered, afterwards⟩ := Lower.bind_eq_ok.mp emitted
    obtain rfl := Lower.emit_eq_ok.mp afterwards
    exact ⟨between, valueLowered, lowered⟩
  · cases lowered

theorem lowerProgramFrom_return_ok {value : Expr} {rest : Program}
    (lowered : lowerProgramFrom leading session unit (.return value :: rest) = (final, .ok grown)) :
    ∃ between, lowerExpr session.topLevel value unit = .ok ((), between) ∧
      lowerProgramFrom false session (between.add (.bare .return)) rest = (final, .ok grown) := by
  unfold lowerProgramFrom at lowered
  split at lowered
  · rename_i emitted
    obtain ⟨_, between, valueLowered, afterwards⟩ := Lower.bind_eq_ok.mp emitted
    obtain rfl := Lower.emit_eq_ok.mp afterwards
    exact ⟨between, valueLowered, lowered⟩
  · cases lowered

end Programs

theorem Session.compile_eq_ok {session extended : Session} {fragment : Program}
    {unit : CodeUnit} : session.compile fragment = (extended, .ok unit) ↔
      lowerProgramFrom true session .empty fragment = (extended, .ok unit) := by
  unfold Session.compile Session.lower
  rcases lowered : lowerProgramFrom true session .empty fragment with ⟨reached, error | grown⟩
  · simp
  · simp

/-- A fragment that does not compile leaves the session as it was. -/
theorem Session.eq_of_compile_error {session final : Session} {program : Program}
    {error : CompileError} (compiled : session.compile program = (final, .error error)) :
    final = session := by
  unfold Session.compile at compiled
  split at compiled
  · cases compiled
  · cases compiled
    rfl

end Missive
