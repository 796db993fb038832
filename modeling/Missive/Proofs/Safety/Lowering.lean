import Missive.Proofs.Compile.Lowering
import Missive.Proofs.Safety.Layout

/-!
# Compiled code is safe

Lowering adds instructions that fit, whatever lies on the stack already, and constants that are
safe.  An expression puts one operand on top, a statement takes it away again.

The one thing that can go wrong is the size of a collection in the program: an operand has no room
for `2 ^ 31` elements or more.
-/

namespace Missive

/-! ## The size of collections -/

mutual

/-- No collection in the expression has more elements than an operand can say. -/
def Expr.collectionsFit : Expr → Bool
  | .literal _ | .var _ | .self | .super => true
  | .assign _ value => value.collectionsFit
  | .send receiver _ arguments => receiver.collectionsFit && collectionsFitInAll arguments
  | .cascade receiver messages => receiver.collectionsFit && collectionsFitInMessages messages
  | .block _ body => collectionsFitInBody body
  | .array elements => decide (elements.length < 0x80000000) && collectionsFitInAll elements
  | .dictionary entries =>
    decide (entries.length < 0x80000000) && collectionsFitInEntries entries

/-- The same for expressions in a row. -/
def collectionsFitInAll : List Expr → Bool
  | [] => true
  | expr :: rest => expr.collectionsFit && collectionsFitInAll rest

/-- The same for the messages of a cascade. -/
def collectionsFitInMessages : List Message → Bool
  | [] => true
  | ⟨_, arguments⟩ :: rest => collectionsFitInAll arguments && collectionsFitInMessages rest

/-- The same for the entries of a dictionary. -/
def collectionsFitInEntries : List Entry → Bool
  | [] => true
  | ⟨key, value⟩ :: rest =>
    key.collectionsFit && value.collectionsFit && collectionsFitInEntries rest

/-- The same for the statements of a body or of a program. -/
def collectionsFitInBody : List Stmt → Bool
  | [] => true
  | .expr value :: rest | .return value :: rest =>
    value.collectionsFit && collectionsFitInBody rest
  | .declare _ :: rest => collectionsFitInBody rest
  | .define ⟨_, _, _, _, methods, classMethods⟩ :: rest =>
    collectionsFitInMethods methods && collectionsFitInMethods classMethods &&
      collectionsFitInBody rest

/-- The same for the methods on one side of a class. -/
def collectionsFitInMethods : List MethodDef → Bool
  | [] => true
  | ⟨_, _, body⟩ :: rest => collectionsFitInBody body && collectionsFitInMethods rest

end

/-- No collection in the program has more elements than an operand can say. -/
def Program.collectionsFit (program : Program) : Bool := collectionsFitInBody program

/-! ## Code that was added -/

/-- The second unit is the first one with safe constants and with code that fits.  The pool may
still grow when the code runs. -/
structure Lowered (setting : Setting) (unit grown : CodeUnit) (before after : Layout) : Prop where
  poolFits : grown.PoolFits
  constants : ∃ added, grown.constants = unit.constants ++ added ∧
    ∀ constant ∈ added, constant.Safe setting
  code : ∃ added, grown.code.toList = unit.code.toList ++ added ∧
    ∀ pool, grown.constants <+: pool → Flows setting pool added before after

namespace Lowered

variable {setting : Setting} {unit between grown : CodeUnit} {before middle after : Layout}

theorem refl (poolFits : unit.PoolFits) (layout : Layout) :
    Lowered setting unit unit layout layout :=
  ⟨poolFits, ⟨[], (List.append_nil _).symm, fun _ impossible => (List.not_mem_nil impossible).elim⟩,
    ⟨[], (List.append_nil _).symm, fun _ _ => .nil⟩⟩

theorem trans (earlier : Lowered setting unit between before middle)
    (later : Lowered setting between grown middle after) :
    Lowered setting unit grown before after := by
  obtain ⟨firstConstants, firstPool, firstSafe⟩ := earlier.constants
  obtain ⟨secondConstants, secondPool, secondSafe⟩ := later.constants
  obtain ⟨firstCode, firstAdded, firstFlows⟩ := earlier.code
  obtain ⟨secondCode, secondAdded, secondFlows⟩ := later.code
  refine ⟨later.poolFits, ⟨firstConstants ++ secondConstants, ?_, ?_⟩,
    ⟨firstCode ++ secondCode, ?_, ?_⟩⟩
  · rw [secondPool, firstPool, List.append_assoc]
  · exact List.forall_mem_append.mpr ⟨firstSafe, secondSafe⟩
  · rw [secondAdded, firstAdded, List.append_assoc]
  · intro pool isLonger
    have fromBetween : between.constants <+: pool :=
      (secondPool ▸ List.prefix_append _ _ : between.constants <+: grown.constants).trans isLonger
    exact (firstFlows pool fromBetween).append (secondFlows pool isLonger)

/-- One instruction was added. -/
theorem add {instruction : Instruction} (lowered : Lowered setting unit grown before middle)
    (fits : ∀ pool, grown.constants <+: pool → Fits setting pool instruction middle after) :
    Lowered setting unit (grown.add instruction) before after := by
  refine lowered.trans ⟨lowered.poolFits, ⟨[], (List.append_nil _).symm, ?_⟩,
    ⟨[instruction], ?_, fun pool isLonger => .cons (fits pool isLonger) .nil⟩⟩
  · exact fun _ impossible => (List.not_mem_nil impossible).elim
  · exact Array.toList_push

/-- A safe constant was added. -/
theorem addConstant {constant : Constant} {index : Nat}
    (lowered : Lowered setting unit between before after) (safe : constant.Safe setting)
    (added : Missive.addConstant constant between = .ok (index, grown)) :
    Lowered setting unit grown before after ∧ index ≤ Instruction.maxPackedIndex ∧
      ∀ pool, grown.constants <+: pool → pool[index]? = some constant := by
  obtain ⟨small, found, poolFits, sameCode, pools⟩ := addConstant_ok lowered.poolFits added
  refine ⟨lowered.trans ⟨poolFits, ?_, ⟨[], ?_, fun _ _ => .nil⟩⟩, small, ?_⟩
  · rcases pools with same | longer
    · exact ⟨[], by rw [same, List.append_nil], fun _ impossible =>
        (List.not_mem_nil impossible).elim⟩
    · exact ⟨[constant], longer, List.forall_mem_singleton.mpr safe⟩
  · rw [sameCode, List.append_nil]
  · rintro pool ⟨rest, rfl⟩
    obtain ⟨inside, _⟩ := List.getElem?_eq_some_iff.mp found
    rw [List.getElem?_append_left inside, found]

end Lowered

/-! ## Expressions -/

/-- The surroundings are those of code at the place. -/
structure Surroundings.At (surroundings : Surroundings) (setting : Setting) : Prop where
  scopes : surroundings.scopes.length = setting.depth + 1
  owner : surroundings.owner.map Owner.classSide = setting.side

namespace Surroundings.At

variable {surroundings : Surroundings} {setting : Setting}

theorem inBlock (isAt : surroundings.At setting) (parameters : List String) :
    (surroundings.inBlock parameters).At setting.inside :=
  ⟨congrArg (· + 1) isAt.scopes, isAt.owner⟩

theorem declare {name : String} {extended : Surroundings} (isAt : surroundings.At setting)
    (declared : surroundings.declare name = .ok extended) : extended.At setting := by
  unfold Surroundings.declare at declared
  split at declared
  · cases declared
  · split at declared
    · rename_i scope outer isScopes
      cases declared
      have sameLength := isAt.scopes
      rw [isScopes] at sameLength
      exact ⟨sameLength, isAt.owner⟩
    · cases declared
      exact isAt

theorem declareAll {names : List String} {extended : Surroundings}
    (isAt : surroundings.At setting)
    (declared : surroundings.declareAll names = .ok extended) : extended.At setting := by
  induction names generalizing surroundings with
  | nil =>
      cases declared
      exact isAt
  | cons name rest inductionHypothesis =>
      obtain ⟨next, oneDeclared, restDeclared⟩ := Except.bind_eq_ok.mp declared
      exact inductionHypothesis (isAt.declare oneDeclared) restDeclared

theorem side_isSome (isAt : surroundings.At setting) (hasOwner : surroundings.owner.isSome = true) :
    setting.side.isSome = true := by
  rw [← isAt.owner, Option.isSome_map]
  exact hasOwner

end Surroundings.At

section Expressions

variable {surroundings : Surroundings} {setting : Setting} {unit grown : CodeUnit}

theorem lowered_literal {value : Literal} (poolFits : unit.PoolFits)
    (lowered : lowerLiteral value unit = .ok ((), grown)) (before : Layout) :
    Lowered setting unit grown before (false :: before) := by
  have start : Lowered setting unit unit before before := .refl poolFits before
  have viaConstant : ∀ {constant : Constant}, constant.isScalar = true →
      (do emit (.indexed .pushConstant (← addConstant constant)) : Lower Unit) unit =
        .ok ((), grown) → Lowered setting unit grown before (false :: before) := by
    intro constant isScalar pushed
    obtain ⟨index, between, added, emitted⟩ := Lower.bind_eq_ok.mp pushed
    obtain rfl := Lower.emit_eq_ok.mp emitted
    obtain ⟨extended, small, found⟩ := start.addConstant (.scalar isScalar) added
    exact extended.add fun pool isLonger => .pushConstant small (found pool isLonger) isScalar
  cases value with
  | int _ | float _ | string _ | symbol _ =>
      exact viaConstant rfl lowered
  | bool value =>
      cases value with
      | true =>
          obtain rfl := Lower.emit_eq_ok.mp lowered
          exact start.add fun _ _ => .pushSimple (Or.inr (Or.inl rfl))
      | false =>
          obtain rfl := Lower.emit_eq_ok.mp lowered
          exact start.add fun _ _ => .pushSimple (Or.inr (Or.inr rfl))
  | nil =>
      obtain rfl := Lower.emit_eq_ok.mp lowered
      exact start.add fun _ _ => .pushSimple (Or.inl rfl)

/-- The variable that a name denotes is there for code at the place. -/
theorem lowered_access {access : Access} {name : String} (isAt : surroundings.At setting)
    (poolFits : unit.PoolFits)
    (lowered : lowerAccess surroundings access name unit = .ok ((), grown))
    {before after : Layout} (moves : access.Moves before after) :
    Lowered setting unit grown before after := by
  have start : Lowered setting unit unit before before := .refl poolFits before
  obtain ⟨location, resolved, accessed⟩ := lowerAccess_ok lowered
  cases location with
  | slot index =>
      obtain rfl := Lower.emit_eq_ok.mp accessed
      exact start.add fun _ _ => .slot moves
  | outer slot depth =>
      obtain ⟨_, _, rfl⟩ := Lower.emitPacked_eq_ok.mp accessed
      obtain ⟨found, _, near⟩ := Surroundings.resolve_eq_outer_iff.mp resolved
      have inScopes := (findLocal_lt found).2
      rw [isAt.scopes] at inScopes
      exact start.add fun _ _ => .outer moves near (by omega)
  | field index =>
      obtain rfl := Lower.emit_eq_ok.mp accessed
      obtain ⟨owner, isOwner, located⟩ :=
        Surroundings.owner_of_resolve resolved (Or.inr ⟨index, rfl⟩)
      have instanceSide : setting.side = some false := by
        rw [← isAt.owner, isOwner, Option.map_some, Owner.classSide_of_field located]
      exact start.add fun _ _ => .field moves instanceSide
  | classVar =>
      obtain ⟨index, between, named, rfl⟩ := lowerAccessAt_name_ok accessed
      obtain ⟨owner, isOwner, _⟩ := Surroundings.owner_of_resolve resolved (Or.inl rfl)
      have inClass := isAt.side_isSome (isOwner ▸ rfl)
      obtain ⟨extended, small, found⟩ := start.addConstant (.scalar rfl) named
      exact extended.add fun pool isLonger => .classVar moves inClass small (found pool isLonger)
  | global =>
      obtain ⟨index, between, named, rfl⟩ := lowerAccessAt_name_ok accessed
      obtain ⟨extended, small, found⟩ := start.addConstant (.scalar rfl) named
      exact extended.add fun pool isLonger => .global moves small (found pool isLonger)

theorem lowered_name {name : String} (isAt : surroundings.At setting) (poolFits : unit.PoolFits)
    (lowered : lowerName surroundings name unit = .ok ((), grown)) (before : Layout) :
    ∃ top, Lowered setting unit grown before (top :: before) := by
  unfold lowerName at lowered
  split at lowered
  · obtain rfl := Lower.emit_eq_ok.mp lowered
    exact ⟨true, (Lowered.refl poolFits before).add fun _ _ => .pushSelf⟩
  · split at lowered
    · cases lowered
    · split at lowered
      · exact ⟨false, lowered_literal poolFits lowered before⟩
      · split at lowered
        · exact ⟨false, lowered_literal poolFits lowered before⟩
        · split at lowered
          · exact ⟨false, lowered_literal poolFits lowered before⟩
          · exact ⟨false, lowered_access isAt poolFits lowered .load⟩

end Expressions

/-! ## Bodies -/

/-- Code that was added to nothing is a unit that can run. -/
theorem Lowered.safe {setting : Setting} {unit : CodeUnit}
    (lowered : Lowered setting .empty unit [] []) : unit.Safe setting := by
  obtain ⟨constants, isPool, safe⟩ := lowered.constants
  obtain ⟨code, isCode, flows⟩ := lowered.code
  have entire := flows unit.constants (List.prefix_refl _)
  rw [show code = unit.code.toList from isCode.symm] at entire
  refine .intro entire ?_
  rw [show unit.constants = constants from isPool]
  exact safe

theorem fits_afterStatement {setting : Setting} {pool : List Constant} (isLast top : Bool)
    (before : Layout) : Fits setting pool (afterStatement isLast) (top :: before) before := by
  cases isLast with
  | true =>
      exact .return
  | false =>
      exact .pop

theorem fits_returnOpcode {setting : Setting} {pool : List Constant} (kind : BodyKind) (top : Bool)
    (before : Layout) : Fits setting pool (.bare (returnOpcode kind)) (top :: before) before := by
  cases kind with
  | topLevel | method =>
      exact .return
  | block =>
      exact .nonLocalReturn

theorem lowered_emptyBody {setting : Setting} {unit : CodeUnit} (poolFits : unit.PoolFits)
    (kind : BodyKind) (before : Layout) :
    Lowered setting unit ((unit.add (emptyBodyPush kind)).add (.bare .return)) before before := by
  have start : Lowered setting unit unit before before := .refl poolFits before
  cases kind with
  | method =>
      exact (start.add fun _ _ => .pushSelf).add fun _ _ => .return
  | topLevel | block =>
      exact (start.add fun _ _ => .pushSimple (Or.inl rfl)).add fun _ _ => .return

mutual

theorem lowered_expr {surroundings : Surroundings} {setting : Setting} {unit grown : CodeUnit}
    (isAt : surroundings.At setting) (poolFits : unit.PoolFits) (before : Layout) (expr : Expr)
    (small : expr.collectionsFit = true)
    (lowered : lowerExpr surroundings expr unit = .ok ((), grown)) :
    ∃ top, Lowered setting unit grown before (top :: before) := by
  match expr with
  | .literal value =>
      exact ⟨false, lowered_literal poolFits lowered before⟩
  | .var name =>
      exact lowered_name isAt poolFits lowered before
  | .self =>
      obtain rfl := Lower.emit_eq_ok.mp lowered
      exact ⟨true, (Lowered.refl poolFits before).add fun _ _ => .pushSelf⟩
  | .super =>
      cases lowered
  | .assign target value =>
      obtain ⟨_, between, valueLowered, stored⟩ := lowerExpr_assign_ok lowered
      obtain ⟨top, first⟩ := lowered_expr isAt poolFits before value small valueLowered
      exact ⟨top, first.trans (lowered_access isAt first.poolFits stored .store)⟩
  | .send receiver selector arguments =>
      obtain ⟨smallReceiver, smallArguments⟩ := Bool.and_eq_true_iff.mp small
      obtain ⟨first, second, third, index, opcode, arity, receiverCase, argumentsLowered, named,
        rfl⟩ := lowerExpr_send_ok lowered
      obtain ⟨few, fits⟩ := checkArity_ok arity
      rcases receiverCase with ⟨_, hasOwner, rfl, rfl⟩ | ⟨_, receiverLowered, rfl⟩
      · have pushed : Lowered setting unit _ before (true :: before) :=
          (Lowered.refl poolFits before).add fun _ _ => .pushSelf
        obtain ⟨tops, count, rest⟩ := lowered_exprs isAt pushed.poolFits (true :: before) arguments
          smallArguments argumentsLowered
        obtain ⟨extended, small, found⟩ := (pushed.trans rest).addConstant (.scalar rfl) named
        refine ⟨false, extended.add fun pool isLonger => ?_⟩
        rw [← count]
        exact .superSend (isAt.side_isSome hasOwner) small (found pool isLonger) (count ▸ few)
          (count ▸ fits)
      · obtain ⟨top, pushed⟩ :=
          lowered_expr isAt poolFits before receiver smallReceiver receiverLowered
        obtain ⟨tops, count, rest⟩ := lowered_exprs isAt pushed.poolFits (top :: before) arguments
          smallArguments argumentsLowered
        obtain ⟨extended, small, found⟩ := (pushed.trans rest).addConstant (.scalar rfl) named
        refine ⟨false, extended.add fun pool isLonger => ?_⟩
        rw [← count]
        exact .send small (found pool isLonger) (count ▸ few) (count ▸ fits)
  | .cascade receiver messages =>
      obtain ⟨smallReceiver, smallMessages⟩ := Bool.and_eq_true_iff.mp small
      obtain ⟨between, receiverLowered, messagesLowered⟩ := lowerExpr_cascade_ok lowered
      obtain ⟨top, first⟩ :=
        lowered_expr isAt poolFits before receiver smallReceiver receiverLowered
      exact ⟨top, first.trans
        (lowered_messages isAt first.poolFits top before messages smallMessages messagesLowered)⟩
  | .block parameters statements =>
      obtain ⟨few, body, between, index, bodyLowered, added, rfl⟩ := lowerExpr_block_ok lowered
      have inBody := lowered_statements (isAt.inBlock parameters) CodeUnit.poolFits_empty [] true
        statements small bodyLowered
      obtain ⟨extended, small, found⟩ :=
        (Lowered.refl poolFits before).addConstant (.block inBody.safe) added
      exact ⟨false, extended.add fun pool isLonger => .makeClosure small few (found pool isLonger)⟩
  | .array elements =>
      obtain ⟨few, smallElements⟩ := Bool.and_eq_true_iff.mp small
      obtain ⟨between, elementsLowered, rfl⟩ := lowerExpr_array_ok lowered
      obtain ⟨tops, count, pushed⟩ :=
        lowered_exprs isAt poolFits before elements smallElements elementsLowered
      exact ⟨false, pushed.add fun _ _ => .makeArray (of_decide_eq_true few) count⟩
  | .dictionary entries =>
      obtain ⟨few, smallEntries⟩ := Bool.and_eq_true_iff.mp small
      obtain ⟨between, entriesLowered, rfl⟩ := lowerExpr_dictionary_ok lowered
      obtain ⟨tops, count, pushed⟩ :=
        lowered_entries isAt poolFits before entries smallEntries entriesLowered
      exact ⟨false, pushed.add fun _ _ => .makeDictionary (of_decide_eq_true few) count⟩

theorem lowered_exprs {surroundings : Surroundings} {setting : Setting} {unit grown : CodeUnit}
    (isAt : surroundings.At setting) (poolFits : unit.PoolFits) (before : Layout)
    (exprs : List Expr) (small : collectionsFitInAll exprs = true)
    (lowered : lowerExprs surroundings exprs unit = .ok ((), grown)) :
    ∃ tops, tops.length = exprs.length ∧ Lowered setting unit grown before (tops ++ before) := by
  match exprs with
  | [] =>
      cases lowered
      exact ⟨[], rfl, .refl poolFits before⟩
  | expr :: rest =>
      obtain ⟨smallExpr, smallRest⟩ := Bool.and_eq_true_iff.mp small
      obtain ⟨between, exprLowered, restLowered⟩ := lowerExprs_cons_ok lowered
      obtain ⟨top, first⟩ := lowered_expr isAt poolFits before expr smallExpr exprLowered
      obtain ⟨tops, count, later⟩ :=
        lowered_exprs isAt first.poolFits (top :: before) rest smallRest restLowered
      refine ⟨tops ++ [top], ?_, ?_⟩
      · rw [List.length_append, count, List.length_singleton, List.length_cons]
      · rw [List.append_assoc, List.singleton_append]
        exact first.trans later

theorem lowered_messages {surroundings : Surroundings} {setting : Setting}
    {unit grown : CodeUnit} (isAt : surroundings.At setting) (poolFits : unit.PoolFits)
    (top : Bool) (before : Layout) (messages : List Message)
    (small : collectionsFitInMessages messages = true)
    (lowered : lowerMessages surroundings messages unit = .ok ((), grown)) :
    Lowered setting unit grown (top :: before) (top :: before) := by
  match messages with
  | [] =>
      cases lowered
      exact .refl poolFits _
  | ⟨selector, arguments⟩ :: rest =>
      obtain ⟨smallArguments, smallRest⟩ := Bool.and_eq_true_iff.mp small
      obtain ⟨first, second, index, arity, argumentsLowered, named, restLowered⟩ :=
        lowerMessages_cons_ok lowered
      obtain ⟨few, fits⟩ := checkArity_ok arity
      have duplicated : Lowered setting unit _ (top :: before) (top :: top :: before) :=
        (Lowered.refl poolFits _).add fun _ _ => .dup
      obtain ⟨tops, count, pushed⟩ := lowered_exprs isAt duplicated.poolFits (top :: top :: before)
        arguments smallArguments argumentsLowered
      obtain ⟨extended, small, found⟩ :=
        (duplicated.trans pushed).addConstant (.scalar rfl) named
      have sent : Lowered setting unit (second.add (.packed .send index arguments.length))
          (top :: before) (false :: top :: before) := by
        apply extended.add
        intro pool isLonger
        rw [← count]
        exact .send small (found pool isLonger) (count ▸ few) (count ▸ fits)
      have dropped := sent.add fun pool _ => Fits.pop
      exact dropped.trans
        (lowered_messages isAt dropped.poolFits top before rest smallRest restLowered)

theorem lowered_entries {surroundings : Surroundings} {setting : Setting} {unit grown : CodeUnit}
    (isAt : surroundings.At setting) (poolFits : unit.PoolFits) (before : Layout)
    (entries : List Entry) (small : collectionsFitInEntries entries = true)
    (lowered : lowerEntries surroundings entries unit = .ok ((), grown)) :
    ∃ tops, tops.length = 2 * entries.length ∧
      Lowered setting unit grown before (tops ++ before) := by
  match entries with
  | [] =>
      cases lowered
      exact ⟨[], rfl, .refl poolFits before⟩
  | ⟨key, value⟩ :: rest =>
      obtain ⟨smallEntry, smallRest⟩ := Bool.and_eq_true_iff.mp small
      obtain ⟨smallKey, smallValue⟩ := Bool.and_eq_true_iff.mp smallEntry
      obtain ⟨first, second, keyLowered, valueLowered, restLowered⟩ := lowerEntries_cons_ok lowered
      obtain ⟨keyTop, ofKey⟩ := lowered_expr isAt poolFits before key smallKey keyLowered
      obtain ⟨valueTop, ofValue⟩ :=
        lowered_expr isAt ofKey.poolFits (keyTop :: before) value smallValue valueLowered
      obtain ⟨tops, count, later⟩ := lowered_entries isAt ofValue.poolFits
        (valueTop :: keyTop :: before) rest smallRest restLowered
      refine ⟨tops ++ [valueTop, keyTop], ?_, ?_⟩
      · simp only [List.length_append, count, List.length_cons, List.length_nil]
        omega
      · rw [List.append_assoc]
        exact (ofKey.trans ofValue).trans later

theorem lowered_statements {surroundings : Surroundings} {setting : Setting}
    {unit grown : CodeUnit} (isAt : surroundings.At setting) (poolFits : unit.PoolFits)
    (before : Layout) (leading : Bool) (statements : List Stmt)
    (small : collectionsFitInBody statements = true)
    (lowered : lowerStatements surroundings leading statements unit = .ok ((), grown)) :
    Lowered setting unit grown before before := by
  match statements with
  | [] =>
      cases leading with
      | false =>
          cases lowered
          exact .refl poolFits before
      | true =>
          obtain rfl := emitEmptyBody_ok lowered
          exact lowered_emptyBody poolFits surroundings.kind before
  | .declare names :: rest =>
      obtain ⟨_, extended, declared, restLowered⟩ := lowerStatements_declare_ok lowered
      exact lowered_statements (isAt.declareAll declared) poolFits before true rest small
        restLowered
  | .define definition :: rest =>
      cases lowered
  | .expr value :: rest =>
      obtain ⟨smallValue, smallRest⟩ := Bool.and_eq_true_iff.mp small
      obtain ⟨between, valueLowered, restLowered⟩ := lowerStatements_expr_ok lowered
      obtain ⟨top, pushed⟩ := lowered_expr isAt poolFits before value smallValue valueLowered
      have dropped := pushed.add fun pool _ => fits_afterStatement rest.isEmpty top before
      exact dropped.trans (lowered_statements isAt dropped.poolFits before false rest smallRest
        restLowered)
  | .return value :: rest =>
      obtain ⟨smallValue, smallRest⟩ := Bool.and_eq_true_iff.mp small
      obtain ⟨between, valueLowered, restLowered⟩ := lowerStatements_return_ok lowered
      obtain ⟨top, pushed⟩ := lowered_expr isAt poolFits before value smallValue valueLowered
      have returned := pushed.add fun pool _ => fits_returnOpcode surroundings.kind top before
      exact returned.trans (lowered_statements isAt returned.poolFits before false rest smallRest
        restLowered)

end

/-! ## Classes and programs -/

theorem safe_lowerMethod {session : Session} {owner : Owner} {definition : MethodDef}
    {descriptor : MethodDescriptor} (small : collectionsFitInBody definition.body = true)
    (lowered : lowerMethod session owner definition = .ok descriptor) :
    descriptor.body.Safe (.method owner.classSide) := by
  obtain ⟨body, _, bodyLowered, rfl⟩ := lowerMethod_eq_ok.mp lowered
  have isAt : Surroundings.At
      ⟨session, [Scope.ofParameters .method definition.parameters], some owner⟩
      (.method owner.classSide) := ⟨rfl, rfl⟩
  exact (lowered_statements isAt CodeUnit.poolFits_empty [] true definition.body small
    bodyLowered).safe

theorem collectionsFit_of_mem {methods : List MethodDef}
    (small : collectionsFitInMethods methods = true) {definition : MethodDef}
    (member : definition ∈ methods) : collectionsFitInBody definition.body = true := by
  induction methods with
  | nil =>
      exact (List.not_mem_nil member).elim
  | cons first rest inductionHypothesis =>
      obtain ⟨selector, parameters, body⟩ := first
      obtain ⟨smallFirst, smallRest⟩ := Bool.and_eq_true_iff.mp small
      rcases List.mem_cons.mp member with rfl | inRest
      · exact smallFirst
      · exact inductionHypothesis smallRest inRest

/-- The methods on one side of a class. -/
theorem safe_lowerMethods {session : Session} {owner : Owner} {methods : List MethodDef}
    {descriptors : List MethodDescriptor} (small : collectionsFitInMethods methods = true)
    (lowered : methods.mapM (lowerMethod session owner) = .ok descriptors) :
    ∀ descriptor ∈ descriptors, descriptor.body.Safe (.method owner.classSide) := by
  intro descriptor member
  obtain ⟨definition, isMethod, methodLowered⟩ := Except.exists_of_mem_mapM lowered member
  exact safe_lowerMethod (collectionsFit_of_mem small isMethod) methodLowered

theorem safe_lowerClass {session extended : Session} {definition : ClassDef}
    {descriptor : ClassDescriptor} (setting : Setting)
    (small : collectionsFitInMethods definition.methods = true)
    (smallClassSide : collectionsFitInMethods definition.classMethods = true)
    (lowered : lowerClass session definition = (extended, .ok descriptor)) :
    (Constant.classDescriptor descriptor).Safe setting := by
  obtain ⟨_, _, _, methodsLowered⟩ := lowerClass_eq_ok.mp lowered
  obtain ⟨_, _, ofMethods, ofClassMethods, rfl⟩ := lowerMethods_eq_ok.mp methodsLowered
  exact .classDescriptor (safe_lowerMethods small ofMethods)
    (safe_lowerMethods smallClassSide ofClassMethods)

theorem Session.topLevel_at (session : Session) : session.topLevel.At .topLevel := ⟨rfl, rfl⟩

theorem lowered_program {leading : Bool} {session final : Session} {unit grown : CodeUnit}
    {program : Program} (poolFits : unit.PoolFits)
    (small : collectionsFitInBody program = true)
    (lowered : lowerProgramFrom leading session unit program = (final, .ok grown))
    (before : Layout) : Lowered .topLevel unit grown before before := by
  induction program generalizing leading session unit with
  | nil =>
      rcases lowerProgramFrom_nil_ok lowered with ⟨_, rfl⟩ | ⟨_, rfl⟩
      · exact .refl poolFits before
      · exact lowered_emptyBody poolFits .topLevel before
  | cons statement rest inductionHypothesis =>
      cases statement with
      | declare names =>
          obtain ⟨_, extended, _, restLowered⟩ := lowerProgramFrom_declare_ok lowered
          exact inductionHypothesis poolFits small restLowered
      | define definition =>
          obtain ⟨name, superclass, fields, classVars, methods, classMethods⟩ := definition
          obtain ⟨smallClass, smallRest⟩ := Bool.and_eq_true_iff.mp small
          obtain ⟨smallMethods, smallClassMethods⟩ := Bool.and_eq_true_iff.mp smallClass
          obtain ⟨extended, descriptor, index, between, classLowered, added, restLowered⟩ :=
            lowerProgramFrom_define_ok lowered
          have safe := safe_lowerClass .topLevel smallMethods smallClassMethods classLowered
          obtain ⟨pooled, few, found⟩ := (Lowered.refl poolFits before).addConstant safe added
          have defined := pooled.add fun pool isLonger => .defineClass few (found pool isLonger)
          have dropped := defined.add fun pool _ => fits_afterStatement rest.isEmpty false before
          exact dropped.trans (inductionHypothesis dropped.poolFits smallRest restLowered)
      | expr value =>
          obtain ⟨smallValue, smallRest⟩ := Bool.and_eq_true_iff.mp small
          obtain ⟨between, valueLowered, restLowered⟩ := lowerProgramFrom_expr_ok lowered
          obtain ⟨top, pushed⟩ :=
            lowered_expr session.topLevel_at poolFits before value smallValue valueLowered
          have dropped := pushed.add fun pool _ => fits_afterStatement rest.isEmpty top before
          exact dropped.trans (inductionHypothesis dropped.poolFits smallRest restLowered)
      | «return» value =>
          obtain ⟨smallValue, smallRest⟩ := Bool.and_eq_true_iff.mp small
          obtain ⟨between, valueLowered, restLowered⟩ := lowerProgramFrom_return_ok lowered
          obtain ⟨top, pushed⟩ :=
            lowered_expr session.topLevel_at poolFits before value smallValue valueLowered
          have returned := pushed.add fun pool _ => fits_returnOpcode .topLevel top before
          exact returned.trans (inductionHypothesis returned.poolFits smallRest restLowered)

/-- Every program that compiles becomes safe code. -/
theorem Session.safe_compile {session extended : Session} {fragment : Program} {unit : CodeUnit}
    (small : fragment.collectionsFit = true)
    (compiled : session.compile fragment = (extended, .ok unit)) : unit.Safe .topLevel := by
  have lowered := Session.compile_eq_ok.mp compiled
  exact (lowered_program CodeUnit.poolFits_empty small lowered []).safe

end Missive
