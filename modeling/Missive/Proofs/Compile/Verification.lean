import Missive.Proofs.Code.Verified
import Missive.Proofs.Safety.Lowering

/-!
# Verification accepts compiled code

Lowering adds one instruction or one constant at a time to a unit.  Each of them is such that
verification still accepts the unit, however its pool grows afterwards, and a unit that is nested in
it was built in the same way.

Two things in a program can be too large for an operand.  A collection can have `2 ^ 31` elements or
more.  And a body can have so many variables that a slot does not fit beside the depth of a block:
there is room for `2 ^ 23` names, and for `2 ^ 31` fields of an instance.
-/

namespace Missive

/-! ## The size of scopes -/

/-- An operand can hold the slot of each variable together with a depth. -/
def Scope.fits (scope : Scope) : Bool :=
  decide (scope.names.length ≤ Instruction.maxPackedIndex + 1)

/-- The scope with further names. -/
def Scope.declareAll (scope : Scope) (names : List String) : Scope :=
  names.foldl Scope.declare scope

mutual

/-- No block in the expression declares more names than an operand can tell apart. -/
def Expr.scopesFit : Expr → Bool
  | .literal _ | .var _ | .self | .super => true
  | .assign _ value => value.scopesFit
  | .send receiver _ arguments => receiver.scopesFit && scopesFitInAll arguments
  | .cascade receiver messages => receiver.scopesFit && scopesFitInMessages messages
  | .block parameters body => scopesFitInBody (Scope.ofParameters .block parameters) body
  | .array elements => scopesFitInAll elements
  | .dictionary entries => scopesFitInEntries entries

/-- The same for expressions in a row. -/
def scopesFitInAll : List Expr → Bool
  | [] => true
  | expr :: rest => expr.scopesFit && scopesFitInAll rest

/-- The same for the messages of a cascade. -/
def scopesFitInMessages : List Message → Bool
  | [] => true
  | ⟨_, arguments⟩ :: rest => scopesFitInAll arguments && scopesFitInMessages rest

/-- The same for the entries of a dictionary. -/
def scopesFitInEntries : List Entry → Bool
  | [] => true
  | ⟨key, value⟩ :: rest => key.scopesFit && value.scopesFit && scopesFitInEntries rest

/-- The same for the statements of a body or of a program, and for the names of the body itself.
The scope holds those that are declared before the statements. -/
def scopesFitInBody (scope : Scope) : List Stmt → Bool
  | [] => scope.fits
  | .expr value :: rest | .return value :: rest => value.scopesFit && scopesFitInBody scope rest
  | .declare names :: rest => scopesFitInBody (scope.declareAll names) rest
  | .define ⟨_, _, _, _, methods, classMethods⟩ :: rest =>
    scopesFitInMethods methods && scopesFitInMethods classMethods && scopesFitInBody scope rest

/-- The same for the methods on one side of a class. -/
def scopesFitInMethods : List MethodDef → Bool
  | [] => true
  | ⟨_, parameters, body⟩ :: rest =>
    scopesFitInBody (Scope.ofParameters .method parameters) body && scopesFitInMethods rest

end

/-- An operand can hold the slot of each field of an instance. -/
def fieldsFit (fields : List String) : Bool := decide (fields.length ≤ 0x80000000)

/-- The same for the classes that a program defines one after the other. -/
def fieldsFitInProgram : Session → Program → Bool
  | _, [] => true
  | session, .define definition :: rest =>
    (match shapeOf session definition with
      | .ok shape => fieldsFit shape.fields
      | .error _ => true) &&
      fieldsFitInProgram (lowerClass session definition).1 rest
  | session, .declare names :: rest => fieldsFitInProgram (session.declareAll names).1 rest
  | session, .expr _ :: rest | session, .return _ :: rest => fieldsFitInProgram session rest

/-- No body of the program declares more names than an operand can tell apart, what the session has
declared before included, and no class has more fields. -/
def Program.scopesFit (session : Session) (program : Program) : Bool :=
  scopesFitInBody ⟨.topLevel, session.locals⟩ program && fieldsFitInProgram session program

theorem Scope.length_declare (scope : Scope) (name : String) :
    scope.names.length ≤ (scope.declare name).names.length := by
  unfold Scope.declare
  split
  · exact Nat.le_refl _
  · simp

theorem Scope.length_declareAll (scope : Scope) (names : List String) :
    scope.names.length ≤ (scope.declareAll names).names.length := by
  induction names generalizing scope with
  | nil =>
      exact Nat.le_refl _
  | cons name rest inductionHypothesis =>
      exact Nat.le_trans (scope.length_declare name) (inductionHypothesis _)

/-- The names before the statements are among those of the body. -/
theorem fits_of_scopesFitInBody {scope : Scope} {statements : List Stmt}
    (small : scopesFitInBody scope statements = true) : scope.fits = true := by
  induction statements generalizing scope with
  | nil =>
      exact small
  | cons statement rest inductionHypothesis =>
      cases statement with
      | expr value | «return» value =>
          exact inductionHypothesis (Bool.and_eq_true_iff.mp small).2
      | declare names =>
          have extended : (scope.declareAll names).fits = true := inductionHypothesis small
          have longer := scope.length_declareAll names
          simp only [Scope.fits, decide_eq_true_eq] at extended ⊢
          omega
      | define definition =>
          obtain ⟨name, superclass, fields, classVars, methods, classMethods⟩ := definition
          exact inductionHypothesis (Bool.and_eq_true_iff.mp small).2

/-! ## Names that were found -/

/-- The names and the fields around an expression fit. -/
structure Surroundings.Fit (surroundings : Surroundings) : Prop where
  scopes : ∀ scope ∈ surroundings.scopes, scope.fits = true
  fields : ∀ owner ∈ surroundings.owner, fieldsFit owner.fields = true

theorem findLocal_le {name : String} {start slot depth : Nat} {scopes : List Scope}
    (fit : ∀ scope ∈ scopes, scope.fits = true)
    (found : findLocal name start scopes = some (slot, depth)) :
    slot ≤ Instruction.maxPackedIndex := by
  induction scopes generalizing start with
  | nil =>
      cases found
  | cons scope outer inductionHypothesis =>
      obtain ⟨here, further⟩ := List.forall_mem_cons.mp fit
      unfold findLocal at found
      cases isSlot : scope.slot? name with
      | some index =>
          simp only [isSlot, Option.some.injEq, Prod.mk.injEq] at found
          have inside := (List.findIdx?_eq_some_iff_getElem.mp isSlot).1
          simp only [Scope.fits, decide_eq_true_eq] at here
          omega
      | none =>
          simp only [isSlot] at found
          by_cases isBlock : scope.kind = .block
          · simp only [isBlock, if_true] at found
            exact inductionHypothesis further found
          · simp [isBlock] at found

namespace Surroundings.Fit

variable {surroundings : Surroundings} {name : String}

theorem slot_le (fit : surroundings.Fit) {slot : Nat}
    (resolved : surroundings.resolve name = .ok (.slot slot)) :
    slot ≤ Instruction.maxPackedIndex := by
  unfold Surroundings.resolve at resolved
  split at resolved
  · rename_i found
    cases resolved
    exact findLocal_le fit.scopes found
  · split at resolved <;> cases resolved
  · split at resolved
    · rename_i owner _
      unfold Owner.locate at resolved
      split at resolved
      · cases resolved
      · split at resolved <;> cases resolved
    · cases resolved

theorem field_lt (fit : surroundings.Fit) {index : Nat}
    (resolved : surroundings.resolve name = .ok (.field index)) : index < 0x80000000 := by
  obtain ⟨owner, isOwner, located⟩ :=
    Surroundings.owner_of_resolve resolved (Or.inr ⟨index, rfl⟩)
  have few := fit.fields owner isOwner
  have instanceSide := Owner.classSide_of_field located
  unfold Owner.locate at located
  simp only [instanceSide, Bool.false_eq_true, if_false] at located
  cases isField : owner.fields.idxOf? name with
  | none =>
      simp only [isField] at located
      split at located <;> cases located
  | some position =>
      simp only [isField, Location.field.injEq] at located
      have inside := (List.findIdx?_eq_some_iff_getElem.mp isField).1
      simp only [fieldsFit, decide_eq_true_eq] at few
      omega

theorem inner (fit : surroundings.Fit) {scope : Scope} (small : scope.fits = true) :
    (surroundings.enter scope).Fit :=
  ⟨List.forall_mem_cons.mpr ⟨small, fit.scopes⟩, fit.fields⟩

end Surroundings.Fit

/-- Declarations extend the innermost scope. -/
theorem Surroundings.declareAll_ok {surroundings extended : Surroundings} {scope : Scope}
    {outer : List Scope} {names : List String} (scopes : surroundings.scopes = scope :: outer)
    (declared : surroundings.declareAll names = .ok extended) :
    extended = { surroundings with scopes := scope.declareAll names :: outer } := by
  induction names generalizing surroundings scope with
  | nil =>
      cases declared
      rw [show scope.declareAll [] = scope from rfl, ← scopes]
  | cons name rest inductionHypothesis =>
      obtain ⟨next, oneDeclared, restDeclared⟩ := Except.bind_eq_ok.mp declared
      unfold Surroundings.declare at oneDeclared
      split at oneDeclared
      · cases oneDeclared
      · rw [scopes] at oneDeclared
        cases oneDeclared
        have further := inductionHypothesis rfl restDeclared
        exact further

theorem Session.declareAll_ok {session extended : Session} {names : List String}
    (declared : session.declareAll names = (extended, .ok ())) :
    Scope.declareAll ⟨.topLevel, session.locals⟩ names = ⟨.topLevel, extended.locals⟩ := by
  induction names generalizing session with
  | nil =>
      cases declared
      rfl
  | cons name rest inductionHypothesis =>
      unfold Session.declareAll at declared
      split at declared
      · cases declared
      · have sameNames : Scope.declare ⟨.topLevel, session.locals⟩ name =
            ⟨.topLevel, (session.declare name).locals⟩ := by
          unfold Scope.declare Session.declare
          split <;> rfl
        rw [← inductionHypothesis declared, ← sameNames]
        rfl

/-! ## Valid instructions -/

namespace Instruction

variable {pool : List Constant} {codeSize : Nat}

theorem not_ofNat_neg {number : Nat} (fits : number < 0x80000000) : ¬ Int32.ofNat number < 0 := by
  rw [Int32.lt_iff_toInt_lt, Int32.toInt_ofNat_of_lt fits]
  simp

theorem not_pack_neg {index count : Nat} (small : index ≤ maxPackedIndex) :
    ¬ packedOperand index count < 0 := by
  unfold maxPackedIndex at small
  exact not_ofNat_neg (by omega)

theorem selected_ofNat {index : Nat} (small : index ≤ maxPackedIndex) :
    selected pool (Int32.ofNat index) = pool[index]? := by
  have fits : index < 0x80000000 := Nat.lt_of_le_of_lt small (by decide)
  unfold selected
  rw [Exec.operandIndex?_ofNat fits, Option.bind_some]

theorem packedSelected_packedOperand {index count : Nat} (small : index ≤ maxPackedIndex)
    (few : count ≤ maxPackedCount) :
    packedSelected pool (packedOperand index count) = pool[index]? := by
  unfold packedSelected
  rw [unpack_packedOperand small few]

theorem valid_bare {opcode : Opcode} (noOperand : opcode.operandKind = .none) :
    (bare opcode).Valid pool codeSize := by
  simp [Valid, bare, noOperand]

/-- The operand is a plain number. -/
theorem valid_number {opcode : Opcode} {number : Nat} (fits : number < 0x80000000)
    (isNumber : opcode.operandKind = .slot ∨ opcode.operandKind = .field ∨
      opcode.operandKind = .count) :
    (indexed opcode number).Valid pool codeSize := by
  have nonnegative := not_ofNat_neg fits
  rcases isNumber with kind | kind | kind <;> simpa [Valid, indexed, kind] using nonnegative

theorem valid_outer {opcode : Opcode} {slot depth : Nat} (small : slot ≤ maxPackedIndex)
    (near : depth ≤ maxPackedCount) (positive : 0 < depth) (kind : opcode.operandKind = .outer) :
    (packed opcode slot depth).Valid pool codeSize := by
  simp only [Valid, packed, kind]
  refine ⟨not_pack_neg small, ?_⟩
  rw [unpack_packedOperand_count slot near]
  omega

theorem valid_pushConstant {index : Nat} {constant : Constant} (small : index ≤ maxPackedIndex)
    (found : pool[index]? = some constant) :
    (indexed .pushConstant index).Valid pool codeSize :=
  ⟨constant, (selected_ofNat small).trans found⟩

theorem valid_name {opcode : Opcode} {index : Nat} {name : String}
    (small : index ≤ maxPackedIndex) (found : pool[index]? = some (.string name))
    (kind : opcode.operandKind = .name) : (indexed opcode index).Valid pool codeSize := by
  simp only [Valid, indexed, kind]
  exact ⟨name, (selected_ofNat small).trans found⟩

theorem valid_send {opcode : Opcode} {index count : Nat} {selector : Selector}
    (small : index ≤ maxPackedIndex) (few : count ≤ maxPackedCount)
    (found : pool[index]? = some (.string selector)) (kind : opcode.operandKind = .send) :
    (packed opcode index count).Valid pool codeSize := by
  simp only [Valid, packed, kind]
  exact ⟨not_pack_neg small, selector, (packedSelected_packedOperand small few).trans found⟩

theorem valid_makeClosure {index count : Nat} {body : CodeUnit}
    (small : index ≤ maxPackedIndex) (few : count ≤ maxPackedCount)
    (found : pool[index]? = some (.block body)) :
    (packed .makeClosure index count).Valid pool codeSize :=
  ⟨not_pack_neg small, body, (packedSelected_packedOperand small few).trans found⟩

theorem valid_defineClass {index : Nat} {descriptor : ClassDescriptor}
    (small : index ≤ maxPackedIndex) (found : pool[index]? = some (.classDescriptor descriptor)) :
    (indexed .defineClass index).Valid pool codeSize :=
  ⟨descriptor, (selected_ofNat small).trans found⟩

end Instruction

/-! ## Units that grow -/

/-- Verification accepts the unit, also with a larger pool. -/
structure CodeUnit.Accepted (unit : CodeUnit) : Prop where
  poolFits : unit.PoolFits
  constants : ∀ constant ∈ unit.constants, constant.Verified
  code : ∀ instruction ∈ unit.code.toList, ∀ pool, unit.constants <+: pool →
    ∀ codeSize, instruction.Valid pool codeSize

namespace CodeUnit.Accepted

variable {unit grown : CodeUnit}

theorem empty : CodeUnit.empty.Accepted :=
  ⟨CodeUnit.poolFits_empty, by simp [CodeUnit.empty], by simp [CodeUnit.empty]⟩

theorem verify (accepted : unit.Accepted) : unit.verify = .ok () :=
  CodeUnit.verify_eq_ok_iff.mpr
    ⟨fun instruction member => accepted.code instruction member _ (List.prefix_refl _) _,
      accepted.constants⟩

/-- One instruction was added. -/
theorem add (accepted : unit.Accepted) {instruction : Instruction}
    (valid : ∀ pool, unit.constants <+: pool → ∀ codeSize, instruction.Valid pool codeSize) :
    (unit.add instruction).Accepted := by
  refine ⟨accepted.poolFits, accepted.constants, fun other member => ?_⟩
  have cases : other ∈ unit.code.toList ∨ other = instruction := by
    simpa [CodeUnit.add] using member
  rcases cases with old | rfl
  · exact accepted.code other old
  · exact valid

theorem addBare (accepted : unit.Accepted) {opcode : Opcode}
    (noOperand : opcode.operandKind = .none) : (unit.add (.bare opcode)).Accepted :=
  accepted.add fun _ _ _ => Instruction.valid_bare noOperand

/-- A constant was added, and it stands at the index also when the pool grows further. -/
theorem addConstant (accepted : unit.Accepted) {constant : Constant} {index : Nat}
    (added : Missive.addConstant constant unit = .ok (index, grown))
    (verified : constant.Verified) :
    grown.Accepted ∧ index ≤ Instruction.maxPackedIndex ∧
      ∀ pool, grown.constants <+: pool → pool[index]? = some constant := by
  obtain ⟨small, found, poolFits, sameCode, pools⟩ := addConstant_ok accepted.poolFits added
  have longer : unit.constants <+: grown.constants := by
    rcases pools with same | appended
    · exact same ▸ List.prefix_refl _
    · exact appended ▸ List.prefix_append _ _
  have verifiedAll : ∀ other ∈ grown.constants, other.Verified := by
    rcases pools with same | appended
    · exact same ▸ accepted.constants
    · rw [appended]
      exact List.forall_mem_append.mpr
        ⟨accepted.constants, List.forall_mem_singleton.mpr verified⟩
  refine ⟨⟨poolFits, verifiedAll, fun instruction member pool isLonger => ?_⟩, small, ?_⟩
  · exact accepted.code instruction (sameCode ▸ member) pool (longer.trans isLonger)
  · rintro pool ⟨rest, rfl⟩
    have inside := (List.getElem?_eq_some_iff.mp found).1
    rw [List.getElem?_append_left inside, found]

end CodeUnit.Accepted

/-! ## Expressions -/

section Expressions

variable {surroundings : Surroundings} {unit grown : CodeUnit}

theorem accepted_literal {value : Literal} (accepted : unit.Accepted)
    (lowered : lowerLiteral value unit = .ok ((), grown)) : grown.Accepted := by
  have viaConstant : ∀ {constant : Constant},
      (do emit (.indexed .pushConstant (← addConstant constant)) : Lower Unit) unit =
        .ok ((), grown) → constant.Verified → grown.Accepted := by
    intro constant pushed verified
    obtain ⟨index, between, added, emitted⟩ := Lower.bind_eq_ok.mp pushed
    obtain rfl := Lower.emit_eq_ok.mp emitted
    obtain ⟨extended, small, found⟩ := accepted.addConstant added verified
    exact extended.add fun pool isLonger _ =>
      Instruction.valid_pushConstant small (found pool isLonger)
  cases value with
  | int _ | float _ | string _ | symbol _ =>
      exact viaConstant lowered trivial
  | bool value =>
      cases value with
      | true | false =>
          obtain rfl := Lower.emit_eq_ok.mp lowered
          exact accepted.addBare rfl
  | nil =>
      obtain rfl := Lower.emit_eq_ok.mp lowered
      exact accepted.addBare rfl

/-- A name in the pool for an instruction that uses the variable. -/
theorem accepted_named {access : Access} {location : Location} {name : String}
    (accepted : unit.Accepted) (kind : (access.opcode location).operandKind = .name)
    (lowered : (do emit (.indexed (access.opcode location) (← addName name)) : Lower Unit) unit =
      .ok ((), grown)) : grown.Accepted := by
  obtain ⟨index, between, named, rfl⟩ := lowerAccessAt_name_ok lowered
  obtain ⟨extended, small, found⟩ := accepted.addConstant named trivial
  exact extended.add fun pool isLonger _ => Instruction.valid_name small (found pool isLonger) kind

theorem accepted_access {access : Access} {name : String} (fit : surroundings.Fit)
    (accepted : unit.Accepted)
    (lowered : lowerAccess surroundings access name unit = .ok ((), grown)) : grown.Accepted := by
  obtain ⟨location, resolved, accessed⟩ := lowerAccess_ok lowered
  cases location with
  | slot index =>
      obtain rfl := Lower.emit_eq_ok.mp accessed
      have small := fit.slot_le resolved
      have fits : index < 0x80000000 := Nat.lt_of_le_of_lt small (by decide)
      refine accepted.add fun _ _ _ => Instruction.valid_number fits ?_
      cases access <;> simp [Access.opcode, Opcode.operandKind]
  | outer slot depth =>
      obtain ⟨_, _, rfl⟩ := Lower.emitPacked_eq_ok.mp accessed
      obtain ⟨found, positive, near⟩ := Surroundings.resolve_eq_outer_iff.mp resolved
      have small := findLocal_le fit.scopes found
      refine accepted.add fun _ _ _ => Instruction.valid_outer small near positive ?_
      cases access <;> rfl
  | field index =>
      obtain rfl := Lower.emit_eq_ok.mp accessed
      refine accepted.add fun _ _ _ => Instruction.valid_number (fit.field_lt resolved) ?_
      cases access <;> simp [Access.opcode, Opcode.operandKind]
  | classVar | global =>
      refine accepted_named accepted ?_ accessed
      cases access <;> rfl

theorem accepted_name {name : String} (fit : surroundings.Fit) (accepted : unit.Accepted)
    (lowered : lowerName surroundings name unit = .ok ((), grown)) : grown.Accepted := by
  unfold lowerName at lowered
  split at lowered
  · obtain rfl := Lower.emit_eq_ok.mp lowered
    exact accepted.addBare rfl
  · split at lowered
    · cases lowered
    · split at lowered
      · exact accepted_literal accepted lowered
      · split at lowered
        · exact accepted_literal accepted lowered
        · split at lowered
          · exact accepted_literal accepted lowered
          · exact accepted_access fit accepted lowered

/-- The selector of a message with the instruction that sends it. -/
theorem accepted_message {opcode : Opcode} {selector : Selector} {index given : Nat}
    (accepted : unit.Accepted) (kind : opcode.operandKind = .send)
    (arity : checkArity selector given = .ok ())
    (named : addName selector unit = .ok (index, grown)) :
    (grown.add (.packed opcode index given)).Accepted := by
  obtain ⟨few, _⟩ := checkArity_ok arity
  obtain ⟨extended, small, found⟩ := accepted.addConstant named trivial
  exact extended.add fun pool isLonger _ =>
    Instruction.valid_send small few (found pool isLonger) kind

end Expressions

/-! ## Bodies -/

theorem accepted_emptyBody {unit : CodeUnit} (accepted : unit.Accepted) (kind : BodyKind) :
    ((unit.add (emptyBodyPush kind)).add (.bare .return)).Accepted := by
  have pushed : (unit.add (emptyBodyPush kind)).Accepted := by
    cases kind <;> exact accepted.addBare rfl
  exact pushed.addBare rfl

theorem accepted_afterStatement {unit : CodeUnit} (accepted : unit.Accepted) (isLast : Bool) :
    (unit.add (afterStatement isLast)).Accepted := by
  cases isLast <;> exact accepted.addBare rfl

theorem accepted_returnOpcode {unit : CodeUnit} (accepted : unit.Accepted) (kind : BodyKind) :
    (unit.add (.bare (returnOpcode kind))).Accepted := by
  cases kind <;> exact accepted.addBare rfl

mutual

theorem accepted_expr {surroundings : Surroundings} {unit grown : CodeUnit}
    (fit : surroundings.Fit) (accepted : unit.Accepted) (expr : Expr)
    (scopes : expr.scopesFit = true) (collections : expr.collectionsFit = true)
    (lowered : lowerExpr surroundings expr unit = .ok ((), grown)) : grown.Accepted := by
  match expr with
  | .literal value =>
      exact accepted_literal accepted lowered
  | .var name =>
      exact accepted_name fit accepted lowered
  | .self =>
      obtain rfl := Lower.emit_eq_ok.mp lowered
      exact accepted.addBare rfl
  | .super =>
      cases lowered
  | .assign target value =>
      obtain ⟨_, between, valueLowered, stored⟩ := lowerExpr_assign_ok lowered
      have pushed := accepted_expr fit accepted value scopes collections valueLowered
      exact accepted_access fit pushed stored
  | .send receiver selector arguments =>
      obtain ⟨scopesReceiver, scopesArguments⟩ := Bool.and_eq_true_iff.mp scopes
      obtain ⟨collectionsReceiver, collectionsArguments⟩ := Bool.and_eq_true_iff.mp collections
      obtain ⟨first, second, third, index, opcode, arity, receiverCase, argumentsLowered, named,
        rfl⟩ := lowerExpr_send_ok lowered
      have pushed : first.Accepted ∧ opcode.operandKind = .send := by
        rcases receiverCase with ⟨_, _, rfl, rfl⟩ | ⟨_, receiverLowered, rfl⟩
        · exact ⟨accepted.addBare rfl, rfl⟩
        · exact ⟨accepted_expr fit accepted receiver scopesReceiver collectionsReceiver
            receiverLowered, rfl⟩
      have given := accepted_exprs fit pushed.1 arguments scopesArguments collectionsArguments
        argumentsLowered
      exact accepted_message given pushed.2 arity named
  | .cascade receiver messages =>
      obtain ⟨scopesReceiver, scopesMessages⟩ := Bool.and_eq_true_iff.mp scopes
      obtain ⟨collectionsReceiver, collectionsMessages⟩ := Bool.and_eq_true_iff.mp collections
      obtain ⟨between, receiverLowered, messagesLowered⟩ := lowerExpr_cascade_ok lowered
      have pushed := accepted_expr fit accepted receiver scopesReceiver collectionsReceiver
        receiverLowered
      exact accepted_messages fit pushed messages scopesMessages collectionsMessages
        messagesLowered
  | .block parameters statements =>
      obtain ⟨few, body, between, index, bodyLowered, added, rfl⟩ := lowerExpr_block_ok lowered
      have inBody := accepted_statements fit rfl .empty true statements scopes collections
        bodyLowered
      obtain ⟨extended, small, found⟩ := accepted.addConstant added inBody.verify
      exact extended.add fun pool isLonger _ =>
        Instruction.valid_makeClosure small few (found pool isLonger)
  | .array elements =>
      obtain ⟨few, collectionsElements⟩ := Bool.and_eq_true_iff.mp collections
      obtain ⟨between, elementsLowered, rfl⟩ := lowerExpr_array_ok lowered
      have pushed := accepted_exprs fit accepted elements scopes collectionsElements elementsLowered
      exact pushed.add fun _ _ _ =>
        Instruction.valid_number (of_decide_eq_true few) (Or.inr (Or.inr rfl))
  | .dictionary entries =>
      obtain ⟨few, collectionsEntries⟩ := Bool.and_eq_true_iff.mp collections
      obtain ⟨between, entriesLowered, rfl⟩ := lowerExpr_dictionary_ok lowered
      have pushed := accepted_entries fit accepted entries scopes collectionsEntries entriesLowered
      exact pushed.add fun _ _ _ =>
        Instruction.valid_number (of_decide_eq_true few) (Or.inr (Or.inr rfl))

theorem accepted_exprs {surroundings : Surroundings} {unit grown : CodeUnit}
    (fit : surroundings.Fit) (accepted : unit.Accepted) (exprs : List Expr)
    (scopes : scopesFitInAll exprs = true) (collections : collectionsFitInAll exprs = true)
    (lowered : lowerExprs surroundings exprs unit = .ok ((), grown)) : grown.Accepted := by
  match exprs with
  | [] =>
      cases lowered
      exact accepted
  | expr :: rest =>
      obtain ⟨scopesExpr, scopesRest⟩ := Bool.and_eq_true_iff.mp scopes
      obtain ⟨collectionsExpr, collectionsRest⟩ := Bool.and_eq_true_iff.mp collections
      obtain ⟨between, exprLowered, restLowered⟩ := lowerExprs_cons_ok lowered
      have first := accepted_expr fit accepted expr scopesExpr collectionsExpr exprLowered
      exact accepted_exprs fit first rest scopesRest collectionsRest restLowered

theorem accepted_messages {surroundings : Surroundings} {unit grown : CodeUnit}
    (fit : surroundings.Fit) (accepted : unit.Accepted) (messages : List Message)
    (scopes : scopesFitInMessages messages = true)
    (collections : collectionsFitInMessages messages = true)
    (lowered : lowerMessages surroundings messages unit = .ok ((), grown)) : grown.Accepted := by
  match messages with
  | [] =>
      cases lowered
      exact accepted
  | ⟨selector, arguments⟩ :: rest =>
      obtain ⟨scopesArguments, scopesRest⟩ := Bool.and_eq_true_iff.mp scopes
      obtain ⟨collectionsArguments, collectionsRest⟩ := Bool.and_eq_true_iff.mp collections
      obtain ⟨first, second, index, arity, argumentsLowered, named, restLowered⟩ :=
        lowerMessages_cons_ok lowered
      have duplicated : (unit.add (.bare .dup)).Accepted := accepted.addBare rfl
      have given := accepted_exprs fit duplicated arguments scopesArguments collectionsArguments
        argumentsLowered
      have sent : (second.add (.packed .send index arguments.length)).Accepted :=
        accepted_message given rfl arity named
      exact accepted_messages fit (sent.addBare rfl) rest scopesRest collectionsRest restLowered

theorem accepted_entries {surroundings : Surroundings} {unit grown : CodeUnit}
    (fit : surroundings.Fit) (accepted : unit.Accepted) (entries : List Entry)
    (scopes : scopesFitInEntries entries = true)
    (collections : collectionsFitInEntries entries = true)
    (lowered : lowerEntries surroundings entries unit = .ok ((), grown)) : grown.Accepted := by
  match entries with
  | [] =>
      cases lowered
      exact accepted
  | ⟨key, value⟩ :: rest =>
      obtain ⟨scopesEntry, scopesRest⟩ := Bool.and_eq_true_iff.mp scopes
      obtain ⟨scopesKey, scopesValue⟩ := Bool.and_eq_true_iff.mp scopesEntry
      obtain ⟨collectionsEntry, collectionsRest⟩ := Bool.and_eq_true_iff.mp collections
      obtain ⟨collectionsKey, collectionsValue⟩ := Bool.and_eq_true_iff.mp collectionsEntry
      obtain ⟨first, second, keyLowered, valueLowered, restLowered⟩ := lowerEntries_cons_ok lowered
      have keyPushed := accepted_expr fit accepted key scopesKey collectionsKey keyLowered
      have valuePushed := accepted_expr fit keyPushed value scopesValue collectionsValue
        valueLowered
      exact accepted_entries fit valuePushed rest scopesRest collectionsRest restLowered

/-- The innermost scope holds what was declared before the statements; only the scopes around it
are known to fit. -/
theorem accepted_statements {outside surroundings : Surroundings} {scope : Scope}
    {unit grown : CodeUnit} (fit : outside.Fit) (inside : surroundings = outside.enter scope)
    (accepted : unit.Accepted) (leading : Bool) (statements : List Stmt)
    (scopes : scopesFitInBody scope statements = true)
    (collections : collectionsFitInBody statements = true)
    (lowered : lowerStatements surroundings leading statements unit = .ok ((), grown)) :
    grown.Accepted := by
  have fitInside : surroundings.Fit := inside ▸ fit.inner (fits_of_scopesFitInBody scopes)
  match statements with
  | [] =>
      unfold lowerStatements at lowered
      cases leading with
      | true =>
          rw [emitEmptyBody_ok lowered]
          exact accepted_emptyBody accepted surroundings.kind
      | false =>
          cases lowered
          exact accepted
  | .declare names :: rest =>
      obtain ⟨_, extended, declared, restLowered⟩ := lowerStatements_declare_ok lowered
      have same : extended = outside.enter (scope.declareAll names) := by
        have sameScopes : surroundings.scopes = scope :: outside.scopes := inside ▸ rfl
        rw [Surroundings.declareAll_ok sameScopes declared, inside]
        rfl
      exact accepted_statements fit same accepted true rest scopes collections restLowered
  | .define definition :: rest =>
      unfold lowerStatements at lowered
      cases lowered
  | .expr value :: rest =>
      obtain ⟨scopesValue, scopesRest⟩ := Bool.and_eq_true_iff.mp scopes
      obtain ⟨collectionsValue, collectionsRest⟩ := Bool.and_eq_true_iff.mp collections
      obtain ⟨between, valueLowered, restLowered⟩ := lowerStatements_expr_ok lowered
      have pushed := accepted_expr fitInside accepted value scopesValue collectionsValue
        valueLowered
      exact accepted_statements fit inside (accepted_afterStatement pushed rest.isEmpty) false rest
        scopesRest collectionsRest restLowered
  | .return value :: rest =>
      obtain ⟨scopesValue, scopesRest⟩ := Bool.and_eq_true_iff.mp scopes
      obtain ⟨collectionsValue, collectionsRest⟩ := Bool.and_eq_true_iff.mp collections
      obtain ⟨between, valueLowered, restLowered⟩ := lowerStatements_return_ok lowered
      have pushed := accepted_expr fitInside accepted value scopesValue collectionsValue
        valueLowered
      exact accepted_statements fit inside (accepted_returnOpcode pushed surroundings.kind) false
        rest scopesRest collectionsRest restLowered

end

/-! ## Classes and programs -/

theorem verified_lowerMethod {session : Session} {owner : Owner} {definition : MethodDef}
    {descriptor : MethodDescriptor} (fields : fieldsFit owner.fields = true)
    (scopes : scopesFitInBody (Scope.ofParameters .method definition.parameters)
      definition.body = true)
    (collections : collectionsFitInBody definition.body = true)
    (lowered : lowerMethod session owner definition = .ok descriptor) :
    descriptor.body.verify = .ok () := by
  obtain ⟨body, _, bodyLowered, rfl⟩ := lowerMethod_eq_ok.mp lowered
  have outside : Surroundings.Fit ⟨session, [], some owner⟩ :=
    ⟨by simp, fun _ isOwner => Option.some.inj isOwner ▸ fields⟩
  have inBody := accepted_statements outside rfl .empty true definition.body scopes collections
    bodyLowered
  exact inBody.verify

theorem scopesFit_of_mem {methods : List MethodDef} (small : scopesFitInMethods methods = true)
    {definition : MethodDef} (member : definition ∈ methods) :
    scopesFitInBody (Scope.ofParameters .method definition.parameters) definition.body = true := by
  induction methods with
  | nil =>
      exact (List.not_mem_nil member).elim
  | cons first rest inductionHypothesis =>
      obtain ⟨selector, parameters, body⟩ := first
      obtain ⟨smallFirst, smallRest⟩ := Bool.and_eq_true_iff.mp small
      rcases List.mem_cons.mp member with rfl | inRest
      · exact smallFirst
      · exact inductionHypothesis smallRest inRest

theorem verified_lowerMethods {session : Session} {owner : Owner} {methods : List MethodDef}
    {descriptors : List MethodDescriptor} (fields : fieldsFit owner.fields = true)
    (scopes : scopesFitInMethods methods = true)
    (collections : collectionsFitInMethods methods = true)
    (lowered : methods.mapM (lowerMethod session owner) = .ok descriptors) :
    ∀ descriptor ∈ descriptors, descriptor.body.verify = .ok () := by
  intro descriptor member
  obtain ⟨definition, isMethod, methodLowered⟩ := Except.exists_of_mem_mapM lowered member
  exact verified_lowerMethod fields (scopesFit_of_mem scopes isMethod)
    (collectionsFit_of_mem collections isMethod) methodLowered

theorem verified_lowerClass {session extended : Session} {definition : ClassDef}
    {descriptor : ClassDescriptor}
    (fields : (match shapeOf session definition with
      | .ok shape => fieldsFit shape.fields
      | .error _ => true) = true)
    (scopes : scopesFitInMethods definition.methods = true)
    (scopesClassSide : scopesFitInMethods definition.classMethods = true)
    (collections : collectionsFitInMethods definition.methods = true)
    (collectionsClassSide : collectionsFitInMethods definition.classMethods = true)
    (lowered : lowerClass session definition = (extended, .ok descriptor)) :
    (Constant.classDescriptor descriptor).Verified := by
  obtain ⟨_, isShape, _, methodsLowered⟩ := lowerClass_eq_ok.mp lowered
  obtain ⟨_, _, ofMethods, ofClassMethods, rfl⟩ := lowerMethods_eq_ok.mp methodsLowered
  rw [isShape] at fields
  exact List.forall_mem_append.mpr ⟨verified_lowerMethods fields scopes collections ofMethods,
    verified_lowerMethods fields scopesClassSide collectionsClassSide ofClassMethods⟩

theorem Session.topLevel_fit {session : Session} {program : Program}
    (scopes : scopesFitInBody ⟨.topLevel, session.locals⟩ program = true) :
    session.topLevel.Fit := by
  refine ⟨List.forall_mem_singleton.mpr (fits_of_scopesFitInBody scopes), ?_⟩
  simp [Session.topLevel]

theorem lowerClass_locals (session : Session) (definition : ClassDef) :
    (lowerClass session definition).1.locals = session.locals := by
  unfold lowerClass
  split <;> rfl

theorem accepted_program {leading : Bool} {session final : Session} {unit grown : CodeUnit}
    {program : Program} (accepted : unit.Accepted)
    (scopes : scopesFitInBody ⟨.topLevel, session.locals⟩ program = true)
    (fields : fieldsFitInProgram session program = true)
    (collections : collectionsFitInBody program = true)
    (lowered : lowerProgramFrom leading session unit program = (final, .ok grown)) :
    grown.Accepted := by
  induction program generalizing leading session unit with
  | nil =>
      rcases lowerProgramFrom_nil_ok lowered with ⟨_, rfl⟩ | ⟨_, rfl⟩
      · exact accepted
      · exact accepted_emptyBody accepted .topLevel
  | cons statement rest inductionHypothesis =>
      have fit := Session.topLevel_fit scopes
      cases statement with
      | declare names =>
          obtain ⟨_, extended, declared, restLowered⟩ := lowerProgramFrom_declare_ok lowered
          have scopesRest : scopesFitInBody ⟨.topLevel, extended.locals⟩ rest = true :=
            Session.declareAll_ok declared ▸ scopes
          have fieldsRest : fieldsFitInProgram (session.declareAll names).1 rest = true := fields
          rw [declared] at fieldsRest
          exact inductionHypothesis accepted scopesRest fieldsRest collections restLowered
      | define definition =>
          obtain ⟨fieldsClass, fieldsRest⟩ := Bool.and_eq_true_iff.mp fields
          obtain ⟨name, superclass, fieldNames, classVars, methods, classMethods⟩ := definition
          obtain ⟨scopesClass, scopesRest⟩ := Bool.and_eq_true_iff.mp scopes
          obtain ⟨scopesMethods, scopesClassMethods⟩ := Bool.and_eq_true_iff.mp scopesClass
          obtain ⟨collectionsClass, collectionsRest⟩ := Bool.and_eq_true_iff.mp collections
          obtain ⟨collectionsMethods, collectionsClassMethods⟩ :=
            Bool.and_eq_true_iff.mp collectionsClass
          obtain ⟨extended, descriptor, index, between, classLowered, added, restLowered⟩ :=
            lowerProgramFrom_define_ok lowered
          have verified := verified_lowerClass fieldsClass scopesMethods scopesClassMethods
            collectionsMethods collectionsClassMethods classLowered
          obtain ⟨pooled, few, found⟩ := accepted.addConstant added verified
          have defined : (between.add (.indexed .defineClass index)).Accepted :=
            pooled.add fun pool isLonger _ =>
              Instruction.valid_defineClass few (found pool isLonger)
          have sameLocals := lowerClass_locals session
            ⟨name, superclass, fieldNames, classVars, methods, classMethods⟩
          rw [classLowered] at fieldsRest sameLocals
          exact inductionHypothesis (accepted_afterStatement defined rest.isEmpty)
            (sameLocals ▸ scopesRest) fieldsRest collectionsRest restLowered
      | expr value =>
          obtain ⟨scopesValue, scopesRest⟩ := Bool.and_eq_true_iff.mp scopes
          obtain ⟨collectionsValue, collectionsRest⟩ := Bool.and_eq_true_iff.mp collections
          obtain ⟨between, valueLowered, restLowered⟩ := lowerProgramFrom_expr_ok lowered
          have pushed := accepted_expr fit accepted value scopesValue collectionsValue valueLowered
          exact inductionHypothesis (accepted_afterStatement pushed rest.isEmpty) scopesRest fields
            collectionsRest restLowered
      | «return» value =>
          obtain ⟨scopesValue, scopesRest⟩ := Bool.and_eq_true_iff.mp scopes
          obtain ⟨collectionsValue, collectionsRest⟩ := Bool.and_eq_true_iff.mp collections
          obtain ⟨between, valueLowered, restLowered⟩ := lowerProgramFrom_return_ok lowered
          have pushed := accepted_expr fit accepted value scopesValue collectionsValue valueLowered
          exact inductionHypothesis (pushed.addBare rfl) scopesRest fields collectionsRest
            restLowered

/-- Whatever was compiled in a session before, verification accepts the unit of every program that
compiles, with all units nested in it. -/
theorem Session.verify_compile {session extended : Session} {fragment : Program} {unit : CodeUnit}
    (scopes : fragment.scopesFit session = true) (collections : fragment.collectionsFit = true)
    (compiled : session.compile fragment = (extended, .ok unit)) : unit.verify = .ok () := by
  obtain ⟨scopesBodies, fields⟩ := Bool.and_eq_true_iff.mp scopes
  unfold Session.compile at compiled
  split at compiled
  · rename_i lowered
    cases compiled
    exact (accepted_program .empty scopesBodies fields collections lowered).verify
  · cases compiled

/-- A second fragment of a session, with a class whose method has a block, a block that stores in a
variable of the first fragment, and a variable of its own. -/
theorem Session.verify_compile_counter :
    let session : Session := ⟨["total"], Session.initial.classes⟩
    let fragment : Program :=
      [.declare ["step"],
        .define ⟨"Counter", some "Object", ["count"], ["made"],
          [⟨"add:", ["amount"], [.return (.block [] [.expr (.assign "count" (.var "amount"))])]⟩],
          [⟨"new", [], [.return (.send .super "new" [])]⟩]⟩,
        .expr (.block ["each"] [.expr (.assign "total" (.array [.var "each", .var "step"]))])]
    ∃ extended unit, session.compile fragment = (extended, .ok unit) ∧ unit.constants.length = 2 ∧
      unit.verify = .ok () := by
  intro session fragment
  have scopes : fragment.scopesFit session = true := by decide
  have collections : fragment.collectionsFit = true := by decide
  exact ⟨_, _, rfl, rfl, verify_compile scopes collections rfl⟩

end Missive
