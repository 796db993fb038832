import Missive.Proofs.Compile.References

/-!
# Pools of constants

The instructions of a body refer to its constants by their places in the pool of its unit.  While
the body is compiled, the pool only grows at its end, so a place that has once been given to a
constant keeps it.  A literal that is there already is found again, so none gets a second place.

What the finished instructions refer to is therefore what the body refers to, one by one and in the
same order.
-/

namespace Missive

/-! ## Pools while they grow -/

/-- Being the same literal is being equal and no unit or class. -/
theorem Constant.sameLiteral_iff_eq (constant other : Constant) :
    constant.sameLiteral other = true ↔ constant = other ∧ constant.isScalar = true := by
  constructor
  · intro same
    refine ⟨eq_of_sameLiteral same, ?_⟩
    cases constant with
    | block _ | classDescriptor _ =>
        cases same
    | int _ | float _ | string _ | bool _ | nil =>
        rfl
  · rintro ⟨rfl, isScalar⟩
    cases constant with
    | block _ | classDescriptor _ =>
        cases isScalar
    | int _ | float _ | string _ | bool _ | nil =>
        simp [Constant.sameLiteral]

/-- No two constants of the pool are the same literal. -/
def CodeUnit.Distinct (unit : CodeUnit) : Prop :=
  unit.constants.Pairwise fun constant other => constant.sameLiteral other = false

theorem CodeUnit.distinct_empty : CodeUnit.empty.Distinct := .nil

/-- A literal has only one place in the pool. -/
theorem CodeUnit.Distinct.place_unique {unit : CodeUnit} (distinct : unit.Distinct)
    {index place : Nat} {constant : Constant} (isScalar : constant.isScalar = true)
    (found : unit.constants[index]? = some constant)
    (alsoFound : unit.constants[place]? = some constant) : index = place := by
  have same : constant.sameLiteral constant = true :=
    (constant.sameLiteral_iff_eq constant).mpr ⟨rfl, isScalar⟩
  have notApart : ¬ constant.sameLiteral constant = false := by simp [same]
  exact place_eq_of_pairwise distinct found alsoFound notApart notApart

/-- The pool has at most grown at its end, and not by a literal that was there. -/
structure CodeUnit.Extends (unit grown : CodeUnit) : Prop where
  constants : unit.constants <+: grown.constants
  distinct : unit.Distinct → grown.Distinct

namespace CodeUnit.Extends

variable {unit between grown : CodeUnit}

theorem refl (unit : CodeUnit) : unit.Extends unit := ⟨List.prefix_refl _, id⟩

theorem trans (first : unit.Extends between) (next : between.Extends grown) :
    unit.Extends grown :=
  ⟨first.constants.trans next.constants, next.distinct ∘ first.distinct⟩

end CodeUnit.Extends

/-- The constant is at the index, and the other constants stay where they are. -/
theorem addConstant_extends {constant : Constant} {unit grown : CodeUnit} {index : Nat}
    (added : addConstant constant unit = .ok (index, grown)) :
    unit.Extends grown ∧ grown.constants[index]? = some constant := by
  rcases addConstant_eq_ok.mp added with ⟨found, rfl⟩ | ⟨found, _, rfl, rfl⟩
  · obtain ⟨inside, same, _⟩ := List.findIdx?_eq_some_iff_getElem.mp found
    refine ⟨.refl _, ?_⟩
    rw [List.getElem?_eq_getElem inside, eq_of_sameLiteral same]
  · refine ⟨⟨List.prefix_append _ _, fun distinct => ?_⟩, by simp⟩
    refine List.pairwise_append.mpr ⟨distinct, List.pairwise_singleton _ _, ?_⟩
    intro other member last isLast
    obtain rfl := List.mem_singleton.mp isLast
    have missing := List.findIdx?_eq_none_iff.mp found other member
    rw [← Bool.not_eq_true] at missing ⊢
    intro same
    rw [eq_of_sameLiteral same] at missing same
    exact missing same

theorem Op.emitPlaced_adds {opcode : Opcode} {index : Nat} {count : Option Nat}
    {unit grown : CodeUnit} (emitted : emitPlaced opcode index count unit = .ok ((), grown)) :
    ∃ instruction, grown = unit.add instruction := by
  cases count with
  | none => exact ⟨_, Lower.emit_eq_ok.mp emitted⟩
  | some count =>
      obtain ⟨_, _, same⟩ := Lower.emitPacked_eq_ok.mp emitted
      exact ⟨_, same⟩

theorem assemble_extends {ops : List Op} {unit grown : CodeUnit}
    (assembled : assemble ops unit = .ok ((), grown)) : unit.Extends grown := by
  induction ops generalizing unit with
  | nil =>
      cases assembled
      exact .refl _
  | cons op rest inductionHypothesis =>
      obtain ⟨⟨⟩, between, opAdded, restAssembled⟩ := Lower.bind_eq_ok.mp assembled
      refine CodeUnit.Extends.trans ?_ (inductionHypothesis restAssembled)
      cases op with
      | bare instruction =>
          cases opAdded
          exact ⟨List.prefix_refl _, id⟩
      | pooled opcode constant count =>
          obtain ⟨index, middle, constantAdded, emitted⟩ := Lower.bind_eq_ok.mp opAdded
          obtain ⟨grows, _⟩ := addConstant_extends constantAdded
          obtain ⟨instruction, rfl⟩ := Op.emitPlaced_adds emitted
          exact ⟨grows.constants, grows.distinct⟩

theorem Realizes.extends {lower : Lower Unit} {plan : Plan} (realizes : Realizes lower plan)
    {unit grown : CodeUnit} (lowered : lower unit = .ok ((), grown)) : unit.Extends grown := by
  obtain ⟨ops, _, assembled⟩ := (realizes _ _).mp lowered
  exact assemble_extends assembled

theorem lowerProgramFrom_extends {leading : Bool} {session final : Session}
    {unit grown : CodeUnit} {program : Program}
    (lowered : lowerProgramFrom leading session unit program = (final, .ok grown)) :
    unit.Extends grown := by
  obtain ⟨ops, _, assembled⟩ := lowerProgramFrom_eq_ok.mp lowered
  exact assemble_extends assembled

/-! ## What instructions denote -/

/-- The instruction refers to a constant, or else to another instruction. -/
def Instruction.refers (instruction : Instruction) : Bool :=
  !instruction.opcode.operandKind.isPlain

/-- The instruction does what the reference asks for, and in the pool it selects the constant of the
reference. -/
def Reference.Denoted (pool : List Constant) (reference : Reference) (instruction : Instruction) :
    Prop :=
  match reference with
  | .literal value => instruction.opcode = .pushConstant ∧
      ∃ constant, value.constant? = some constant ∧
        Instruction.selected pool instruction.operand = some constant
  | .message toSuper selector count =>
      instruction.opcode = (if toSuper then .superSend else .send) ∧
        Instruction.packedSelected pool instruction.operand = some (.string selector) ∧
        (Instruction.unpack instruction.operand).2 = count
  | .use access location name => instruction.opcode = access.opcode location ∧
      Instruction.selected pool instruction.operand = some (.string name)
  | .block surroundings parameters body => instruction.opcode = .makeClosure ∧
      (Instruction.unpack instruction.operand).2 = parameters.length ∧ ∃ unit,
        lowerStatements (surroundings.inBlock parameters) true body .empty = .ok ((), unit) ∧
        Instruction.packedSelected pool instruction.operand = some (.block unit)
  | .definition session source => instruction.opcode = .defineClass ∧
      ∃ extended descriptor, lowerClass session source = (extended, .ok descriptor) ∧
        Instruction.selected pool instruction.operand = some (.classDescriptor descriptor)

/-- Each literal of the pool has one place, and what the instructions refer to is what the body
refers to. -/
structure CodeUnit.Faithful (unit : CodeUnit) (references : List Reference) : Prop where
  places : ∀ (index place : Nat) (constant : Constant), constant.isScalar = true →
    unit.constants[index]? = some constant → unit.constants[place]? = some constant → index = place
  denoted : List.Forall₂ (Reference.Denoted unit.constants) references
    (unit.code.toList.filter Instruction.refers)

namespace Reference.Stands

variable {reference : Reference} {op : Op} {pool : List Constant} {instruction : Instruction}

theorem not_isPlain (stands : reference.Stands op) : op.opcode.operandKind.isPlain = false := by
  cases stands with
  | literal _ | block _ _ | definition _ =>
      rfl
  | @message toSuper _ _ opcode isOpcode _ =>
      cases toSuper <;> cases isOpcode <;> rfl
  | @use _ _ _ opcode _ isName =>
      change opcode.operandKind.isPlain = false
      rw [isName]
      rfl

/-- What an operation stands for is what its instruction denotes. -/
theorem denoted (stands : reference.Stands op) (denotes : op.Denotes pool instruction) :
    reference.Denoted pool instruction := by
  cases stands with
  | literal isConstant =>
      cases denotes with
      | pooled small found =>
          exact ⟨rfl, _, isConstant, (Instruction.selected_ofNat small).trans found⟩
  | message isOpcode few =>
      cases denotes with
      | pooled small found =>
          exact ⟨isOpcode, (Instruction.packedSelected_packedOperand small few).trans found,
            Instruction.unpack_packedOperand_count _ few⟩
  | use isOpcode _ =>
      cases denotes with
      | pooled small found =>
          exact ⟨isOpcode, (Instruction.selected_ofNat small).trans found⟩
  | block few lowered =>
      cases denotes with
      | pooled small found =>
          exact ⟨rfl, Instruction.unpack_packedOperand_count _ few, _, lowered,
            (Instruction.packedSelected_packedOperand small few).trans found⟩
  | definition lowered =>
      cases denotes with
      | pooled small found =>
          exact ⟨rfl, _, _, lowered, (Instruction.selected_ofNat small).trans found⟩

end Reference.Stands

/-- The operations that carry references become the instructions that refer to something. -/
theorem Carry.denoted {references : List Reference} {ops : List Op} {pool : List Constant}
    {code : List Instruction} (carry : Carry references ops)
    (denotes : List.Forall₂ (Op.Denotes pool) ops code) :
    List.Forall₂ (Reference.Denoted pool) references (code.filter Instruction.refers) := by
  obtain ⟨stand, plain⟩ := carry
  induction denotes generalizing references with
  | nil =>
      cases stand
      exact .nil
  | @cons op instruction _ code denotes _ inductionHypothesis =>
      have others := fun instruction member => plain instruction (List.mem_cons_of_mem _ member)
      have sameOpcode := denotes.opcode
      cases op with
      | bare own =>
          have isPlain := plain own List.mem_cons_self
          have skipped : instruction.refers = false := by
            unfold Instruction.refers
            rw [← sameOpcode, Op.opcode, isPlain]
            rfl
          rw [List.filter_cons_of_neg (by simp [skipped])]
          exact inductionHypothesis stand others
      | pooled opcode constant count =>
          cases stand with
          | cons stands stand =>
              have kept : instruction.refers = true := by
                unfold Instruction.refers
                rw [← sameOpcode, stands.not_isPlain]
                rfl
              rw [List.filter_cons_of_pos kept]
              exact .cons (stands.denoted denotes) (inductionHypothesis stand others)

theorem CodeUnit.ComesFrom.faithful {unit : CodeUnit} {references : List Reference}
    (comesFrom : unit.ComesFrom references) : unit.Faithful references := by
  obtain ⟨ops, carry, isAssembled⟩ := comesFrom
  obtain ⟨added, isCode, denotes⟩ :=
    (assembled_of_assemble CodeUnit.poolFits_empty isAssembled).code
  have distinct := (assemble_extends isAssembled).distinct CodeUnit.distinct_empty
  refine ⟨fun index place constant isScalar => distinct.place_unique isScalar, ?_⟩
  rw [show unit.code.toList = added from isCode]
  exact carry.denoted (denotes unit.constants (List.prefix_refl _))

/-- In the unit of a program and in every unit inside of it, each literal has one place in the pool,
and the instructions refer to the literals, selectors, names, blocks and classes of the body, in its
order.  An index that has been given to a constant keeps it, whatever is compiled afterwards. -/
theorem Session.pools_faithful {session final : Session} {program : Program} {unit : CodeUnit}
    (compiled : session.compile program = (final, .ok unit)) :
    unit.Faithful (Program.references session program) ∧
      (∀ turn path inner, unit.unitAt? (turn :: path) = some inner →
        ∃ surroundings statements, program.HasBody session surroundings statements ∧
          lowerStatements surroundings true statements .empty = .ok ((), inner) ∧
          inner.Faithful (surroundings.bodyReferences statements)) ∧
      (∀ constant index before after, addConstant constant before = .ok (index, after) →
        before.constants <+: after.constants ∧ ∀ later : CodeUnit,
          after.constants <+: later.constants → later.constants[index]? = some constant) ∧
      (∀ surroundings expr before after, lowerExpr surroundings expr before = .ok ((), after) →
        before.constants <+: after.constants) ∧
      (∀ surroundings leading statements before after,
        lowerStatements surroundings leading statements before = .ok ((), after) →
          before.constants <+: after.constants) ∧
      ∀ reached leading statements before last after,
        lowerProgramFrom leading reached before statements = (last, .ok after) →
          before.constants <+: after.constants := by
  refine ⟨(Session.comesFrom_of_compile compiled).faithful, ?_, ?_, ?_, ?_, ?_⟩
  · intro turn path inner found
    obtain ⟨surroundings, statements, isBody, lowered⟩ := Program.exists_body compiled found
    exact ⟨surroundings, statements, isBody, lowered,
      (Surroundings.comesFrom_of_lower lowered).faithful⟩
  · intro constant index before after added
    obtain ⟨grows, found⟩ := addConstant_extends added
    exact ⟨grows.constants, fun later isLonger => found_in_longer found isLonger⟩
  · intro surroundings expr before after lowered
    exact ((realizes_expr surroundings expr).extends lowered).constants
  · intro surroundings leading statements before after lowered
    exact ((realizes_statements surroundings leading statements).extends lowered).constants
  · intro reached leading statements before last after lowered
    exact (lowerProgramFrom_extends lowered).constants

/-- The two zeros, and a text that is also a symbol, a selector and the name of a variable. -/
def zeros : Program :=
  [.expr (.array [.literal (.float ⟨0⟩), .literal (.float ⟨0x8000000000000000⟩),
    .literal (.string "a"), .send (.var "a") "a" [], .block [] [.expr (.literal (.symbol "a"))]])]

/-- The zeros have places of their own, the text has one place, and the block has its own pool. -/
theorem pools_faithful_zeros :
    ∃ unit inner, Session.initial.compile zeros = (Session.initial, .ok unit) ∧
      unit.constants = [.float ⟨0⟩, .float ⟨0x8000000000000000⟩, .string "a", .block inner] ∧
      inner.constants = [.string "a"] ∧
      (Program.references .initial zeros).take 5 =
        [.literal (.float ⟨0⟩), .literal (.float ⟨0x8000000000000000⟩), .literal (.string "a"),
          .use .load .global "a", .message false "a" 0] ∧
      unit.Faithful (Program.references .initial zeros) ∧
      ∃ surroundings statements, zeros.HasBody .initial surroundings statements ∧
        inner.Faithful (surroundings.bodyReferences statements) := by
  let unit := zeros.compile.toOption.getD .empty
  have compiled : Session.initial.compile zeros = (Session.initial, .ok unit) := rfl
  obtain ⟨faithful, inside, _⟩ := Session.pools_faithful compiled
  obtain ⟨surroundings, statements, isBody, _, innerFaithful⟩ := inside ⟨3, 0⟩ [] _ rfl
  exact ⟨unit, _, compiled, rfl, rfl, rfl, faithful, surroundings, statements, isBody,
    innerFaithful⟩

end Missive
