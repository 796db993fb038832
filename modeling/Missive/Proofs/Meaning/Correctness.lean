import Missive.Proofs.Meaning.Instructions

/-!
# Code does what programs mean

The code of an expression, run from any activation and on top of any stack, sends the messages that
the evaluation of the expression sends, comes to the same world and leaves the value on the stack
with everything below it unchanged.  The code of a body ends as the evaluation of the body does.

The stack may turn out to be full, and operands have room for so much only; nothing else can make a
difference.
-/

namespace Missive

/-! ## Code that was added -/

/-- The second unit starts with the first one, and so does its pool of constants. -/
structure CodeUnit.Begins (unit whole : CodeUnit) : Prop where
  code : unit.code.toList <+: whole.code.toList
  constants : unit.constants <+: whole.constants

theorem CodeUnit.toList_add (unit : CodeUnit) (instruction : Instruction) :
    (unit.add instruction).code.toList = unit.code.toList ++ [instruction] := Array.toList_push

theorem CodeUnit.size_add (unit : CodeUnit) (instruction : Instruction) :
    (unit.add instruction).code.size = unit.code.size + 1 := Array.size_push instruction

namespace CodeUnit.Begins

variable {unit between whole : CodeUnit}

theorem refl (unit : CodeUnit) : unit.Begins unit := ⟨List.prefix_refl _, List.prefix_refl _⟩

theorem trans (first : unit.Begins between) (second : between.Begins whole) : unit.Begins whole :=
  ⟨first.code.trans second.code, first.constants.trans second.constants⟩

theorem add (unit : CodeUnit) (instruction : Instruction) :
    unit.Begins (unit.add instruction) := by
  refine ⟨?_, List.prefix_refl _⟩
  rw [toList_add]
  exact List.prefix_append _ _

theorem size_le (begins : unit.Begins whole) : unit.code.size ≤ whole.code.size :=
  begins.code.length_le

/-- The instruction that was added stands behind the earlier ones. -/
theorem fetch {instruction : Instruction} (begins : (unit.add instruction).Begins whole) :
    whole.code[unit.code.size]? = some instruction := by
  obtain ⟨rest, isWhole⟩ := begins.code
  rw [toList_add] at isWhole
  rw [← Array.getElem?_toList, ← isWhole, List.append_assoc, ← Array.length_toList,
    List.getElem?_append_right (Nat.le_refl _), Nat.sub_self]
  rfl

theorem constant {index : Nat} {constant : Constant} (begins : unit.Begins whole)
    (found : unit.constants[index]? = some constant) : whole.constants[index]? = some constant := by
  obtain ⟨rest, isWhole⟩ := begins.constants
  obtain ⟨inside, _⟩ := List.getElem?_eq_some_iff.mp found
  rw [← isWhole, List.getElem?_append_left inside, found]

/-- The added code can be run in two parts. -/
theorem steps_eq (first : unit.Begins between) (second : between.Begins whole) (oracle : Oracle) :
    Run.steps oracle (whole.code.size - unit.code.size) =
      Run.andThen (Run.steps oracle (between.code.size - unit.code.size))
        (Run.steps oracle (whole.code.size - between.code.size)) := by
  have earlier := first.size_le
  have later := second.size_le
  rw [← Run.steps_add]
  congr 1
  omega

end CodeUnit.Begins

/-- The second unit is the first one with more code, and with a pool that operands can address. -/
structure Grows (unit grown : CodeUnit) : Prop where
  poolFits : grown.PoolFits
  begins : unit.Begins grown

/-- The code that was added does what the evaluation does, from the given stack on and in any unit
that starts with it. -/
structure Compiled {α : Type} (oracle : Oracle) (unit grown : CodeUnit) (before : List Value)
    (done : α → Option Ending → Nat → List Value → Prop) (x : Site → Evaluation α) : Prop
    extends Grows unit grown where
  runs : ∀ base progress, grown.Begins base.frame.code →
    Followed base done (x base.site progress)
      (Run.steps oracle (grown.code.size - unit.code.size)
        (base.reached progress unit.code.size before))

/-- The code goes on with a stack that depends on the value. -/
abbrev Performs {α : Type} (oracle : Oracle) (unit grown : CodeUnit) (before : List Value)
    (after : α → List Value) (x : Site → Evaluation α) : Prop :=
  Compiled oracle unit grown before (GoesOn grown.code.size after) x

/-- The code ends the body and leaves the stack as it was. -/
abbrev Ends (oracle : Oracle) (unit grown : CodeUnit) (before : List Value)
    (x : Site → Evaluation Ending) : Prop :=
  Compiled oracle unit grown before (EndsOn before) x

/-- The value is an answer of the evaluation. -/
def Yields {α : Type} (x : Evaluation α) (value : α) : Prop :=
  ∃ progress later, x progress = .ok value later

section Composition

variable {α β : Type} {oracle : Oracle} {unit between grown : CodeUnit} {before : List Value}
  {middle after : α → List Value} {x : Site → Evaluation α}

theorem performs_pure (poolFits : unit.PoolFits) (value : α) (isAfter : after value = before) :
    Performs oracle unit unit before after (fun _ => pure value) := by
  refine ⟨⟨poolFits, .refl unit⟩, fun base progress _ => ?_⟩
  rw [Nat.sub_self]
  exact .answered ⟨rfl, rfl, isAfter.symm⟩

/-- Code that goes on is followed by more code. -/
theorem Compiled.bind [Inhabited α] {done : β → Option Ending → Nat → List Value → Prop}
    {f : α → Site → Evaluation β} (first : Performs oracle unit between before middle x)
    (next : ∀ value, Compiled oracle between grown (middle value) done (f value)) :
    Compiled oracle unit grown before done (fun site => x site >>= (f · site)) := by
  have rest := next default
  refine ⟨⟨rest.poolFits, first.begins.trans rest.begins⟩, fun base progress isWhole => ?_⟩
  rw [first.begins.steps_eq rest.begins]
  apply (first.runs base progress (rest.begins.trans isWhole)).andThen
  intro value reached _
  exact (next value).runs base reached isWhole

/-- Code that goes on is followed by one more instruction. -/
theorem Compiled.andInstruction {instruction : Instruction} {f : α → Site → Evaluation β}
    {done : β → Option Ending → Nat → List Value → Prop}
    (first : Performs oracle unit between before middle x)
    (executes : ∀ base, between.Begins base.frame.code → ∀ value progress,
      Yields (x base.site) value → Followed base done (f value base.site progress)
        (Run.execute oracle instruction
          (base.reached progress (between.add instruction).code.size (middle value)))) :
    Compiled oracle unit (between.add instruction) before done
      (fun site => x site >>= (f · site)) := by
  have longer := CodeUnit.Begins.add between instruction
  refine ⟨⟨first.poolFits, first.begins.trans longer⟩, fun base progress isWhole => ?_⟩
  have oneMore : (between.add instruction).code.size - between.code.size = 1 := by
    rw [CodeUnit.size_add]
    omega
  rw [first.begins.steps_eq longer, oneMore]
  apply (first.runs base progress (longer.trans isWhole)).andThen
  intro value reached answered
  rw [Run.steps_one isWhole.fetch, ← CodeUnit.size_add]
  exact executes base (longer.trans isWhole) value reached ⟨progress, reached, answered⟩

/-- An instruction after which the code goes on. -/
theorem Compiled.add {instruction : Instruction} {f : α → Site → Evaluation β}
    {final : β → List Value} (first : Performs oracle unit between before middle x)
    (executes : ∀ base, between.Begins base.frame.code → ∀ value, Yields (x base.site) value →
      Executes oracle base instruction (middle value) final (f value base.site)) :
    Performs oracle unit (between.add instruction) before final
      (fun site => x site >>= (f · site)) :=
  first.andInstruction fun base isWhole value progress answered =>
    executes base isWhole value answered progress _

/-- The value on the stack is dropped. -/
theorem Compiled.drop {below : List Value} {y : Site → Evaluation Value}
    (first : Performs oracle unit between before (· :: below) y) :
    Performs oracle unit (between.add (.bare .pop)) before (fun _ => below)
      (fun site => y site >>= fun _ => pure ()) :=
  first.andInstruction fun _ _ value progress _ => executes_pop value progress _

/-- An instruction that ends the body. -/
theorem Compiled.finish {instruction : Instruction} {fromHome : Bool} {y : Site → Evaluation Value}
    (first : Performs oracle unit between before (· :: before) y)
    (isFinish : Run.execute oracle instruction = Run.finish fromHome) :
    Ends oracle unit (between.add instruction) before
      (fun site => y site >>= fun value => pure ⟨fromHome, value⟩) := by
  apply first.andInstruction
  intro base _ value progress _
  rw [isFinish, finish_reached]
  exact .answered ⟨rfl, rfl⟩

/-- Code behind the end of a body is never reached. -/
theorem Compiled.longer {y : Site → Evaluation Ending} (ends : Ends oracle unit between before y)
    (grows : Grows between grown) : Ends oracle unit grown before y := by
  refine ⟨⟨grows.poolFits, ends.begins.trans grows.begins⟩, fun base progress isWhole => ?_⟩
  rw [ends.begins.steps_eq grows.begins]
  exact (ends.runs base progress (grows.begins.trans isWhole)).andThen_of_ends _

/-- A constant is added to the pool. -/
theorem Compiled.addConstant {constant : Constant} {index : Nat}
    (first : Performs oracle unit between before after x)
    (added : Missive.addConstant constant between = .ok (index, grown)) :
    Performs oracle unit grown before after x ∧ index ≤ Instruction.maxPackedIndex ∧
      ∀ base : Base, grown.Begins base.frame.code →
        base.frame.code.constants[index]? = some constant := by
  obtain ⟨small, found, poolFits, sameCode, pools⟩ := addConstant_ok first.poolFits added
  have begins : between.Begins grown := by
    refine ⟨sameCode ▸ List.prefix_refl _, ?_⟩
    rcases pools with same | longer
    · exact same ▸ List.prefix_refl _
    · rw [longer]
      exact List.prefix_append _ _
  refine ⟨⟨⟨poolFits, first.begins.trans begins⟩, fun base progress isWhole => ?_⟩, small,
    fun base isWhole => isWhole.constant found⟩
  rw [sameCode]
  exact first.runs base progress (begins.trans isWhole)

/-- Nothing is done yet. -/
abbrev Prepared (oracle : Oracle) (unit between : CodeUnit) (before : List Value) : Prop :=
  Performs oracle unit between before (fun _ => before) (fun _ => pure ())

theorem prepared (oracle : Oracle) (poolFits : unit.PoolFits) (before : List Value) :
    Prepared oracle unit unit before :=
  performs_pure poolFits () rfl

/-- A single instruction. -/
theorem Compiled.single {instruction : Instruction} (start : Prepared oracle unit between before)
    (executes : ∀ base, between.Begins base.frame.code →
      Executes oracle base instruction before after (x base.site)) :
    Performs oracle unit (between.add instruction) before after x := by
  have added : Performs oracle unit (between.add instruction) before after
      (fun site => (pure () : Evaluation Unit) >>= fun _ => x site) :=
    start.add fun base isWhole _ _ => executes base isWhole
  exact added

end Composition

/-! ## Names and literals -/

section Names

variable {oracle : Oracle} {surroundings : Surroundings} {unit grown : CodeUnit}

theorem performs_literal {literal : Literal} (poolFits : unit.PoolFits)
    (lowered : lowerLiteral literal unit = .ok ((), grown)) (before : List Value) :
    Performs oracle unit grown before (· :: before) (fun _ => pure literal.value) := by
  have start := prepared oracle poolFits before
  have viaConstant : ∀ {constant : Constant}, constant.value? = some literal.value →
      (do emit (.indexed .pushConstant (← addConstant constant)) : Lower Unit) unit =
        .ok ((), grown) →
      Performs oracle unit grown before (· :: before) (fun _ => pure literal.value) := by
    intro constant isValue pushed
    obtain ⟨index, between, added, emitted⟩ := Lower.bind_eq_ok.mp pushed
    obtain rfl := Lower.emit_eq_ok.mp emitted
    obtain ⟨extended, small, found⟩ := start.addConstant added
    exact extended.single fun base isWhole =>
      executes_pushConstant small (found base isWhole) isValue
  cases literal with
  | int _ | float _ | string _ | symbol _ =>
      exact viaConstant rfl lowered
  | bool value =>
      cases value with
      | true =>
          obtain rfl := Lower.emit_eq_ok.mp lowered
          exact start.single fun _ _ => executes_pushTrue
      | false =>
          obtain rfl := Lower.emit_eq_ok.mp lowered
          exact start.single fun _ _ => executes_pushFalse
  | nil =>
      obtain rfl := Lower.emit_eq_ok.mp lowered
      exact start.single fun _ _ => executes_pushNil

/-- The variable that a name denotes is used as the instructions for its location do. -/
theorem performs_access {α : Type} {access : Access} {name : String} {before : List Value}
    {after : α → List Value} {x : Site → Location → Evaluation α} (poolFits : unit.PoolFits)
    (fits : surroundings.holds name = true)
    (lowered : lowerAccess surroundings access name unit = .ok ((), grown))
    (executes : ∀ base location instruction,
      access.Uses name base.frame.code.constants location instruction → location.fits = true →
      Executes oracle base instruction before after (x base.site location)) :
    Performs oracle unit grown before after
      (fun site => surroundings.withLocation name (x site)) := by
  have start := prepared oracle poolFits before
  obtain ⟨location, resolved, accessed⟩ := lowerAccess_ok lowered
  simp only [Surroundings.holds, resolved] at fits
  simp only [Surroundings.withLocation, resolved]
  cases location with
  | slot index =>
      obtain rfl := Lower.emit_eq_ok.mp accessed
      exact start.single fun base _ => executes base _ _ .slot fits
  | outer slot depth =>
      obtain ⟨_, _, rfl⟩ := Lower.emitPacked_eq_ok.mp accessed
      obtain ⟨_, _, near⟩ := Surroundings.resolve_eq_outer_iff.mp resolved
      exact start.single fun base _ => executes base _ _ (.outer near) fits
  | field index =>
      obtain rfl := Lower.emit_eq_ok.mp accessed
      exact start.single fun base _ => executes base _ _ .field fits
  | classVar =>
      obtain ⟨index, between, named, rfl⟩ := lowerAccessAt_name_ok accessed
      obtain ⟨extended, small, found⟩ := start.addConstant named
      exact extended.single fun base isWhole =>
        executes base _ _ (.classVar small (found base isWhole)) fits
  | global =>
      obtain ⟨index, between, named, rfl⟩ := lowerAccessAt_name_ok accessed
      obtain ⟨extended, small, found⟩ := start.addConstant named
      exact extended.single fun base isWhole =>
        executes base _ _ (.global small (found base isWhole)) fits

theorem performs_name {name : String} (poolFits : unit.PoolFits)
    (fits : surroundings.holds name = true)
    (lowered : lowerName surroundings name unit = .ok ((), grown)) (before : List Value) :
    Performs oracle unit grown before (· :: before)
      (fun site => evaluateName surroundings site name) := by
  unfold lowerName at lowered
  unfold evaluateName
  split at lowered
  · rename_i isSelf
    obtain rfl := Lower.emit_eq_ok.mp lowered
    simp only [isSelf, true_or, if_true]
    exact (prepared oracle poolFits before).single fun _ _ => executes_pushSelf
  · rename_i notSelf
    split at lowered
    · cases lowered
    · rename_i notSuper
      simp only [notSelf, notSuper, or_self, if_false]
      split at lowered
      · rename_i isNil
        simp only [isNil, if_true]
        exact performs_literal poolFits lowered before
      · rename_i notNil
        simp only [notNil, if_false]
        split at lowered
        · rename_i isTrue
          simp only [isTrue, if_true]
          exact performs_literal poolFits lowered before
        · rename_i notTrue
          simp only [notTrue, if_false]
          split at lowered
          · rename_i isFalse
            simp only [isFalse, if_true]
            exact performs_literal poolFits lowered before
          · rename_i notFalse
            simp only [notFalse, if_false]
            exact performs_access poolFits fits lowered fun _ _ _ => executes_load

end Names

/-! ## Expressions -/

section Lengths

variable {oracle : Oracle} {surroundings : Surroundings} {site : Site}

theorem Yields.bind {α β : Type} {x : Evaluation α} {f : α → Evaluation β} {result : β}
    (yields : Yields (x >>= f) result) : ∃ value, Yields x value ∧ Yields (f value) result := by
  obtain ⟨progress, final, answered⟩ := yields
  change EStateM.bind x f progress = .ok result final at answered
  unfold EStateM.bind at answered
  cases first : x progress with
  | error cause reached =>
      rw [first] at answered
      cases answered
  | ok value reached =>
      rw [first] at answered
      exact ⟨value, ⟨progress, reached, first⟩, ⟨reached, final, answered⟩⟩

theorem Yields.eq_of_pure {α : Type} {value result : α}
    (yields : Yields (pure value : Evaluation α) result) : value = result := by
  obtain ⟨_, _, answered⟩ := yields
  cases answered
  rfl

theorem length_of_yields {exprs : List Expr} {values : List Value}
    (yields : Yields (evaluateExprs oracle surroundings site exprs) values) :
    values.length = exprs.length := by
  induction exprs generalizing values with
  | nil =>
      unfold evaluateExprs at yields
      rw [← yields.eq_of_pure]
      rfl
  | cons expr rest inductionHypothesis =>
      unfold evaluateExprs at yields
      obtain ⟨value, _, yields⟩ := yields.bind
      obtain ⟨others, othersYield, yields⟩ := yields.bind
      rw [← yields.eq_of_pure, List.length_cons, List.length_cons, inductionHypothesis othersYield]

theorem length_of_yields_entries {entries : List Entry} {pairs : List (Value × Value)}
    (yields : Yields (evaluateEntries oracle surroundings site entries) pairs) :
    pairs.length = entries.length := by
  induction entries generalizing pairs with
  | nil =>
      unfold evaluateEntries at yields
      rw [← yields.eq_of_pure]
      rfl
  | cons entry rest inductionHypothesis =>
      obtain ⟨key, value⟩ := entry
      unfold evaluateEntries at yields
      obtain ⟨_, _, yields⟩ := yields.bind
      obtain ⟨_, _, yields⟩ := yields.bind
      obtain ⟨others, othersYield, yields⟩ := yields.bind
      rw [← yields.eq_of_pure, List.length_cons, List.length_cons, inductionHypothesis othersYield]

end Lengths

theorem evaluateExpr_of_isSuper {receiver : Expr} (isSuper : receiver.isSuper = true)
    (oracle : Oracle) (surroundings : Surroundings) (site : Site) :
    evaluateExpr oracle surroundings site receiver = pure site.receiver := by
  cases receiver with
  | super =>
      rw [evaluateExpr]
  | var name =>
      rw [evaluateExpr, evaluateName, if_pos (Or.inr (eq_of_beq isSuper))]
  | literal _ | self | assign _ _ | send _ _ _ | cascade _ _ | block _ _ | array _ | dictionary _ =>
      cases isSuper

theorem performs_block {oracle : Oracle} {surroundings : Surroundings} {unit grown : CodeUnit}
    {parameters : List String} {statements : List Stmt} (poolFits : unit.PoolFits)
    (lowered : lowerExpr surroundings (.block parameters statements) unit = .ok ((), grown))
    (before : List Value) :
    Performs oracle unit grown before (· :: before)
      (fun site => evaluateBlock surroundings site parameters statements) := by
  obtain ⟨few, body, between, index, bodyLowered, added, rfl⟩ := lowerExpr_block_ok lowered
  obtain ⟨extended, small, found⟩ := (prepared oracle poolFits before).addConstant added
  simp only [evaluateBlock, bodyLowered]
  exact extended.single fun base isWhole => executes_makeClosure small few (found base isWhole)

/-- A message whose arguments have been evaluated is sent. -/
theorem performs_message {oracle : Oracle} {surroundings : Surroundings}
    {unit between grown : CodeUnit} {arguments : List Expr} {target : Value} {before : List Value}
    {selector : Selector} {index : Nat} {opcode : Opcode} {toSuper : Bool}
    (pushed : Performs oracle unit between (target :: before)
      (fun values => values.reverse ++ target :: before)
      (fun site => evaluateExprs oracle surroundings site arguments))
    (named : addName selector between = .ok (index, grown))
    (few : arguments.length ≤ Instruction.maxPackedCount)
    (isSend : ∀ instruction : Instruction, instruction.opcode = opcode →
      Run.execute oracle instruction = Run.answer oracle toSuper instruction) :
    Performs oracle unit (grown.add (.packed opcode index arguments.length)) (target :: before)
      (· :: before) (fun site => do
        let values ← evaluateExprs oracle surroundings site arguments
        Evaluation.ask oracle ⟨toSuper, target, selector, values⟩) := by
  obtain ⟨extended, small, found⟩ := pushed.addConstant named
  apply extended.add
  intro base isWhole values yields
  rw [← length_of_yields yields] at few ⊢
  exact executes_answer small few (found base isWhole) (isSend _ rfl)

theorem execute_send {oracle : Oracle} {instruction : Instruction}
    (isSend : instruction.opcode = .send) :
    Run.execute oracle instruction = Run.answer oracle false instruction := by
  unfold Run.execute
  rw [isSend]

theorem execute_superSend {oracle : Oracle} {instruction : Instruction}
    (isSend : instruction.opcode = .superSend) :
    Run.execute oracle instruction = Run.answer oracle true instruction := by
  unfold Run.execute
  rw [isSend]

mutual

theorem performs_expr (oracle : Oracle) {surroundings : Surroundings} {unit grown : CodeUnit}
    (poolFits : unit.PoolFits) (before : List Value) (expr : Expr)
    (fits : expr.operandsFit surroundings = true)
    (lowered : lowerExpr surroundings expr unit = .ok ((), grown)) :
    Performs oracle unit grown before (· :: before)
      (fun site => evaluateExpr oracle surroundings site expr) := by
  match expr with
  | .literal literal =>
      simp only [evaluateExpr]
      exact performs_literal poolFits lowered before
  | .var name =>
      simp only [evaluateExpr]
      exact performs_name poolFits fits lowered before
  | .self =>
      simp only [evaluateExpr]
      obtain rfl := Lower.emit_eq_ok.mp lowered
      exact (prepared oracle poolFits before).single fun _ _ => executes_pushSelf
  | .super =>
      cases lowered
  | .assign target value =>
      obtain ⟨valueFits, targetFits⟩ := Bool.and_eq_true_iff.mp fits
      obtain ⟨_, between, valueLowered, stored⟩ := lowerExpr_assign_ok lowered
      simp only [evaluateExpr]
      have first := performs_expr oracle poolFits before value valueFits valueLowered
      apply first.bind
      intro result
      have second : Performs oracle between grown (result :: before) (fun _ => result :: before)
          fun site => surroundings.withLocation target (Evaluation.store site target result) :=
        performs_access first.poolFits targetFits stored fun _ _ _ => executes_store
      exact second.bind fun _ => performs_pure second.poolFits result rfl
  | .send receiver selector arguments =>
      obtain ⟨receiverFits, argumentsFit⟩ := Bool.and_eq_true_iff.mp fits
      obtain ⟨first, second, third, index, opcode, arity, receiverCase, argumentsLowered, named,
        rfl⟩ := lowerExpr_send_ok lowered
      obtain ⟨few, _⟩ := checkArity_ok arity
      simp only [evaluateExpr]
      rcases receiverCase with ⟨isSuper, _, rfl, rfl⟩ | ⟨notSuper, receiverLowered, rfl⟩
      · simp only [evaluateExpr_of_isSuper isSuper, isSuper]
        have start : Performs oracle unit _ before (· :: before) fun site => pure site.receiver :=
          (prepared oracle poolFits before).single fun _ _ => executes_pushSelf
        apply start.bind
        intro target
        have pushed := performs_exprs oracle start.poolFits (target :: before) arguments
          argumentsFit argumentsLowered
        exact performs_message pushed named few fun _ => execute_superSend
      · simp only [notSuper]
        have start := performs_expr oracle poolFits before receiver receiverFits receiverLowered
        apply start.bind
        intro target
        have pushed := performs_exprs oracle start.poolFits (target :: before) arguments
          argumentsFit argumentsLowered
        exact performs_message pushed named few fun _ => execute_send
  | .cascade receiver messages =>
      obtain ⟨receiverFits, messagesFit⟩ := Bool.and_eq_true_iff.mp fits
      obtain ⟨between, receiverLowered, messagesLowered⟩ := lowerExpr_cascade_ok lowered
      simp only [evaluateExpr]
      have first := performs_expr oracle poolFits before receiver receiverFits receiverLowered
      apply first.bind
      intro target
      have second := performs_messages oracle first.poolFits target before messages messagesFit
        messagesLowered
      exact second.bind fun _ => performs_pure second.poolFits target rfl
  | .block parameters statements =>
      simp only [evaluateExpr]
      exact performs_block poolFits lowered before
  | .array elements =>
      obtain ⟨few, elementsFit⟩ := Bool.and_eq_true_iff.mp fits
      obtain ⟨between, elementsLowered, rfl⟩ := lowerExpr_array_ok lowered
      simp only [evaluateExpr]
      have pushed := performs_exprs oracle poolFits before elements elementsFit elementsLowered
      apply pushed.add
      intro base _ values yields
      rw [← length_of_yields yields] at few ⊢
      exact executes_makeArray (of_decide_eq_true few)
  | .dictionary entries =>
      obtain ⟨few, entriesFit⟩ := Bool.and_eq_true_iff.mp fits
      obtain ⟨between, entriesLowered, rfl⟩ := lowerExpr_dictionary_ok lowered
      simp only [evaluateExpr]
      have pushed := performs_entries oracle poolFits before entries entriesFit entriesLowered
      apply pushed.add
      intro base _ pairs yields
      rw [← length_of_yields_entries yields] at few ⊢
      exact executes_makeDictionary (of_decide_eq_true few)

theorem performs_exprs (oracle : Oracle) {surroundings : Surroundings} {unit grown : CodeUnit}
    (poolFits : unit.PoolFits) (before : List Value) (exprs : List Expr)
    (fits : operandsFitInAll surroundings exprs = true)
    (lowered : lowerExprs surroundings exprs unit = .ok ((), grown)) :
    Performs oracle unit grown before (fun values => values.reverse ++ before)
      (fun site => evaluateExprs oracle surroundings site exprs) := by
  match exprs with
  | [] =>
      cases lowered
      simp only [evaluateExprs]
      exact performs_pure poolFits [] rfl
  | expr :: rest =>
      obtain ⟨exprFits, restFits⟩ := Bool.and_eq_true_iff.mp fits
      obtain ⟨between, exprLowered, restLowered⟩ := lowerExprs_cons_ok lowered
      simp only [evaluateExprs]
      have first := performs_expr oracle poolFits before expr exprFits exprLowered
      apply first.bind
      intro value
      have second :=
        performs_exprs oracle first.poolFits (value :: before) rest restFits restLowered
      refine second.bind fun values => performs_pure second.poolFits (value :: values) ?_
      rw [List.reverse_cons, List.append_assoc]
      rfl

theorem performs_messages (oracle : Oracle) {surroundings : Surroundings}
    {unit grown : CodeUnit} (poolFits : unit.PoolFits) (target : Value) (before : List Value)
    (messages : List Message) (fits : operandsFitInMessages surroundings messages = true)
    (lowered : lowerMessages surroundings messages unit = .ok ((), grown)) :
    Performs oracle unit grown (target :: before) (fun _ => target :: before)
      (fun site => evaluateMessages oracle surroundings site target messages) := by
  match messages with
  | [] =>
      cases lowered
      simp only [evaluateMessages]
      exact performs_pure poolFits () rfl
  | ⟨selector, arguments⟩ :: rest =>
      obtain ⟨argumentsFit, restFits⟩ := Bool.and_eq_true_iff.mp fits
      obtain ⟨first, second, index, arity, argumentsLowered, named, restLowered⟩ :=
        lowerMessages_cons_ok lowered
      obtain ⟨few, _⟩ := checkArity_ok arity
      have copied : Performs oracle unit _ (target :: before) (fun _ => target :: target :: before)
          fun _ => pure () :=
        (prepared oracle poolFits _).single fun _ _ => executes_dup target
      have pushed := performs_exprs oracle copied.poolFits (target :: target :: before) arguments
        argumentsFit argumentsLowered
      have sent := performs_message pushed named few fun _ => execute_send
      have dropped := sent.drop
      have later :=
        performs_messages oracle dropped.poolFits target before rest restFits restLowered
      have all := copied.bind fun _ => dropped.bind fun _ => later
      simp only [pure_bind, bind_assoc] at all
      simp only [evaluateMessages]
      exact all

theorem performs_entries (oracle : Oracle) {surroundings : Surroundings} {unit grown : CodeUnit}
    (poolFits : unit.PoolFits) (before : List Value) (entries : List Entry)
    (fits : operandsFitInEntries surroundings entries = true)
    (lowered : lowerEntries surroundings entries unit = .ok ((), grown)) :
    Performs oracle unit grown before (fun pairs => (Entries.row pairs).reverse ++ before)
      (fun site => evaluateEntries oracle surroundings site entries) := by
  match entries with
  | [] =>
      cases lowered
      simp only [evaluateEntries]
      exact performs_pure poolFits [] rfl
  | ⟨key, value⟩ :: rest =>
      obtain ⟨entryFits, restFits⟩ := Bool.and_eq_true_iff.mp fits
      obtain ⟨keyFits, valueFits⟩ := Bool.and_eq_true_iff.mp entryFits
      obtain ⟨first, second, keyLowered, valueLowered, restLowered⟩ := lowerEntries_cons_ok lowered
      simp only [evaluateEntries]
      have ofKey := performs_expr oracle poolFits before key keyFits keyLowered
      apply ofKey.bind
      intro keyValue
      have ofValue :=
        performs_expr oracle ofKey.poolFits (keyValue :: before) value valueFits valueLowered
      apply ofValue.bind
      intro valueValue
      have later := performs_entries oracle ofValue.poolFits (valueValue :: keyValue :: before) rest
        restFits restLowered
      apply later.bind
      intro pairs
      apply performs_pure later.poolFits ((keyValue, valueValue) :: pairs)
      change ([keyValue, valueValue] ++ Entries.row pairs).reverse ++ before = _
      rw [List.reverse_append, List.append_assoc]
      rfl

end

/-! ## Bodies -/

theorem Grows.refl {unit : CodeUnit} (poolFits : unit.PoolFits) : Grows unit unit :=
  ⟨poolFits, .refl unit⟩

section Bodies

variable {oracle : Oracle} {unit between grown : CodeUnit} {before : List Value}

/-- The value of a statement is the value of the body, or it is dropped and the body goes on. -/
theorem ends_statement {isLast : Bool} {y : Site → Evaluation Value}
    {next : Site → Evaluation Ending} (pushed : Performs oracle unit between before (· :: before) y)
    (grows : Grows (between.add (afterStatement isLast)) grown)
    (later : isLast = false →
      Ends oracle (between.add (afterStatement isLast)) grown before next) :
    Ends oracle unit grown before (fun site => do
      let value ← y site
      if isLast then return ⟨false, value⟩ else next site) := by
  cases isLast with
  | true =>
      simp only [if_true]
      exact (pushed.finish rfl).longer grows
  | false =>
      have all := pushed.drop.bind fun _ => later rfl
      simp only [pure_bind, bind_assoc] at all
      simp only [Bool.false_eq_true, if_false]
      exact all

theorem execute_returnOpcode (oracle : Oracle) (kind : BodyKind) :
    Run.execute oracle (.bare (returnOpcode kind)) = Run.finish (kind = .block) := by
  cases kind with
  | topLevel | method | block =>
      rfl

/-- A body without statements. -/
theorem ends_emptyBody (oracle : Oracle) (poolFits : unit.PoolFits) (kind : BodyKind)
    (before : List Value) :
    Ends oracle unit ((unit.add (emptyBodyPush kind)).add (.bare .return)) before
      (fun site => pure ⟨false, if kind = .method then site.receiver else .nil⟩) := by
  have start := prepared oracle poolFits before
  cases kind with
  | method =>
      have pushed : Performs oracle unit _ before (· :: before) fun site => pure site.receiver :=
        start.single fun _ _ => executes_pushSelf
      exact pushed.finish rfl
  | topLevel | block =>
      have pushed : Performs oracle unit _ before (· :: before) fun _ => pure .nil :=
        start.single fun _ _ => executes_pushNil
      exact pushed.finish rfl

theorem ends_statements (oracle : Oracle) {surroundings : Surroundings} {leading : Bool}
    {statements : List Stmt} (poolFits : unit.PoolFits) (before : List Value)
    (fits : operandsFitInBody surroundings statements = true)
    (lowered : lowerStatements surroundings leading statements unit = .ok ((), grown)) :
    Grows unit grown ∧ (leading = true ∨ statements.isEmpty = false →
      Ends oracle unit grown before
        (fun site => evaluateBody oracle site surroundings statements)) := by
  induction statements generalizing surroundings leading unit with
  | nil =>
      cases leading with
      | false =>
          cases lowered
          refine ⟨.refl poolFits, fun impossible => ?_⟩
          rcases impossible with impossible | impossible <;> cases impossible
      | true =>
          obtain rfl := emitEmptyBody_ok lowered
          have ends := ends_emptyBody oracle poolFits surroundings.kind before
          simp only [evaluateBody]
          exact ⟨ends.toGrows, fun _ => ends⟩
  | cons statement rest inductionHypothesis =>
      cases statement with
      | declare names =>
          obtain ⟨_, extended, declared, restLowered⟩ := lowerStatements_declare_ok lowered
          simp only [operandsFitInBody, declared] at fits
          obtain ⟨grows, ends⟩ := inductionHypothesis poolFits fits restLowered
          simp only [evaluateBody, declared]
          exact ⟨grows, fun _ => ends (Or.inl rfl)⟩
      | define definition =>
          cases lowered
      | expr value =>
          obtain ⟨valueFits, restFits⟩ := Bool.and_eq_true_iff.mp fits
          obtain ⟨between, valueLowered, restLowered⟩ := lowerStatements_expr_ok lowered
          have pushed := performs_expr oracle poolFits before value valueFits valueLowered
          obtain ⟨grows, ends⟩ := inductionHypothesis (pushed.poolFits.add _) restFits restLowered
          have whole := ends_statement pushed grows fun notLast => ends (Or.inr notLast)
          simp only [evaluateBody]
          exact ⟨whole.toGrows, fun _ => whole⟩
      | «return» value =>
          obtain ⟨valueFits, restFits⟩ := Bool.and_eq_true_iff.mp fits
          obtain ⟨between, valueLowered, restLowered⟩ := lowerStatements_return_ok lowered
          have pushed := performs_expr oracle poolFits before value valueFits valueLowered
          have returned := pushed.finish (execute_returnOpcode oracle surroundings.kind)
          obtain ⟨grows, _⟩ := inductionHypothesis returned.poolFits restFits restLowered
          have whole := returned.longer grows
          simp only [evaluateBody]
          exact ⟨whole.toGrows, fun _ => whole⟩

/-! ## Programs -/

theorem ends_program (oracle : Oracle) {leading : Bool} {session final : Session}
    {program : Program} (poolFits : unit.PoolFits) (before : List Value)
    (fits : operandsFitInProgram session program = true)
    (lowered : lowerProgramFrom leading session unit program = (final, .ok grown)) :
    Grows unit grown ∧ (leading = true ∨ program.isEmpty = false →
      Ends oracle unit grown before (fun site => evaluateProgram oracle site session program)) := by
  induction program generalizing leading session unit with
  | nil =>
      rcases lowerProgramFrom_nil_ok lowered with ⟨rfl, rfl⟩ | ⟨rfl, rfl⟩
      · refine ⟨.refl poolFits, fun impossible => ?_⟩
        rcases impossible with impossible | impossible <;> cases impossible
      · have ends := ends_emptyBody oracle poolFits .topLevel before
        simp only [evaluateProgram]
        exact ⟨ends.toGrows, fun _ => ends⟩
  | cons statement rest inductionHypothesis =>
      cases statement with
      | declare names =>
          obtain ⟨_, extended, declared, restLowered⟩ := lowerProgramFrom_declare_ok lowered
          simp only [operandsFitInProgram, declared] at fits
          obtain ⟨grows, ends⟩ := inductionHypothesis poolFits fits restLowered
          simp only [evaluateProgram, declared]
          exact ⟨grows, fun _ => ends (Or.inl rfl)⟩
      | define definition =>
          obtain ⟨extended, descriptor, index, between, classLowered, added, restLowered⟩ :=
            lowerProgramFrom_define_ok lowered
          simp only [operandsFitInProgram, classLowered] at fits
          obtain ⟨pooled, few, found⟩ := (prepared oracle poolFits before).addConstant added
          have pushed : Performs oracle unit _ before (· :: before) fun _ =>
              evaluateClass descriptor :=
            pooled.single fun base isWhole => executes_defineClass few (found base isWhole)
          obtain ⟨grows, ends⟩ := inductionHypothesis (pushed.poolFits.add _) fits restLowered
          have whole := ends_statement pushed grows fun notLast => ends (Or.inr notLast)
          simp only [evaluateProgram, classLowered]
          exact ⟨whole.toGrows, fun _ => whole⟩
      | expr value =>
          obtain ⟨valueFits, restFits⟩ := Bool.and_eq_true_iff.mp fits
          obtain ⟨between, valueLowered, restLowered⟩ := lowerProgramFrom_expr_ok lowered
          have pushed := performs_expr oracle poolFits before value valueFits valueLowered
          obtain ⟨grows, ends⟩ := inductionHypothesis (pushed.poolFits.add _) restFits restLowered
          have whole := ends_statement pushed grows fun notLast => ends (Or.inr notLast)
          simp only [evaluateProgram]
          exact ⟨whole.toGrows, fun _ => whole⟩
      | «return» value =>
          obtain ⟨valueFits, restFits⟩ := Bool.and_eq_true_iff.mp fits
          obtain ⟨between, valueLowered, restLowered⟩ := lowerProgramFrom_return_ok lowered
          have pushed := performs_expr oracle poolFits before value valueFits valueLowered
          have returned := pushed.finish (execute_returnOpcode oracle .topLevel)
          obtain ⟨grows, _⟩ := inductionHypothesis returned.poolFits restFits restLowered
          have whole := returned.longer grows
          simp only [evaluateProgram]
          exact ⟨whole.toGrows, fun _ => whole⟩

end Bodies

/-! ## Compiled programs -/

/-- Code does what it was compiled from.  Whatever oracle answers the messages, in whatever
activation and on top of whatever stack the code runs: the code of an expression leaves the value on
the stack, and the code of a body or of a program ends as the statements do. -/
theorem lowered_code_follows_evaluation (oracle : Oracle) (base : Base) (progress : Progress)
    (stack : List Value) :
    (∀ surroundings expr unit grown, unit.PoolFits → expr.operandsFit surroundings = true →
      lowerExpr surroundings expr unit = .ok ((), grown) → grown.Begins base.frame.code →
      Followed base (GoesOn grown.code.size (· :: stack))
        (evaluateExpr oracle surroundings base.site expr progress)
        (Run.steps oracle (grown.code.size - unit.code.size)
          (base.reached progress unit.code.size stack))) ∧
    (∀ surroundings statements, operandsFitInBody surroundings statements = true →
      lowerStatements surroundings true statements .empty = .ok ((), base.frame.code) →
      Followed base (EndsOn stack) (evaluateBody oracle base.site surroundings statements progress)
        (Run.steps oracle base.frame.code.code.size (base.reached progress 0 stack))) ∧
    (∀ session final program, operandsFitInProgram session program = true →
      session.lower program = (final, .ok base.frame.code) →
      Followed base (EndsOn stack) (evaluateProgram oracle base.site session program progress)
        (Run.steps oracle base.frame.code.code.size (base.reached progress 0 stack))) := by
  refine ⟨?_, ?_, ?_⟩
  · intro surroundings expr unit grown poolFits fits lowered isWhole
    exact (performs_expr oracle poolFits stack expr fits lowered).runs base progress isWhole
  · intro surroundings statements fits lowered
    have ends := (ends_statements oracle CodeUnit.poolFits_empty stack fits lowered).2 (Or.inl rfl)
    exact ends.runs base progress (.refl _)
  · intro session final program fits lowered
    have ends := (ends_program oracle CodeUnit.poolFits_empty stack fits lowered).2 (Or.inl rfl)
    exact ends.runs base progress (.refl _)

/-- An activation of some code on a machine on which nothing has run yet. -/
def Base.fresh (code : CodeUnit) : Base :=
  ⟨Machine.new default none, { (default : Frame) with code }, []⟩

/-- Answers every message with its receiver. -/
def Oracle.echo : Oracle := fun call world => (.ok call.receiver, world)

/-- A cascade, a method with a statement that is never reached, and the definition of a class. -/
theorem lowered_code_follows_evaluation_three :
    (∃ base, lowerExpr Session.initial.topLevel
        (.cascade (.var "Object") [⟨"name", []⟩, ⟨"at:", [.literal (.int 1)]⟩]) .empty =
          .ok ((), base.frame.code) ∧
      Followed base (GoesOn 8 (· :: [.nil]))
        (evaluateExpr .echo Session.initial.topLevel base.site
          (.cascade (.var "Object") [⟨"name", []⟩, ⟨"at:", [.literal (.int 1)]⟩])
          ⟨base.machine.world, []⟩)
        (Run.steps .echo 8 (base.reached ⟨base.machine.world, []⟩ 0 [.nil]))) ∧
    (∃ base, lowerStatements ⟨Session.initial, [⟨.method, []⟩], none⟩ true
        [.declare ["a"], .expr (.assign "a" .self), .return (.var "a"), .expr (.literal .nil)]
          .empty = .ok ((), base.frame.code) ∧
      Followed base (EndsOn [])
        (evaluateBody .echo base.site ⟨Session.initial, [⟨.method, []⟩], none⟩
          [.declare ["a"], .expr (.assign "a" .self), .return (.var "a"), .expr (.literal .nil)]
          ⟨base.machine.world, []⟩)
        (Run.steps .echo 7 (base.reached ⟨base.machine.world, []⟩ 0 []))) ∧
    (∃ base final, Session.initial.lower [.define ⟨"A", none, [], [], [], []⟩] =
        (final, .ok base.frame.code) ∧
      Followed base (EndsOn [])
        (evaluateProgram .echo base.site Session.initial [.define ⟨"A", none, [], [], [], []⟩]
          ⟨base.machine.world, []⟩)
        (Run.steps .echo 2 (base.reached ⟨base.machine.world, []⟩ 0 []))) := by
  refine ⟨⟨.fresh ⟨#[.indexed .loadGlobal 0, .bare .dup, .packed .send 1 0, .bare .pop, .bare .dup,
      .indexed .pushConstant 2, .packed .send 3 1, .bare .pop],
      [.string "Object", .string "name", .int 1, .string "at:"]⟩, rfl, ?_⟩,
    ⟨.fresh ⟨#[.bare .pushSelf, .indexed .storeLocal 0, .bare .pop, .indexed .loadLocal 0,
      .bare .return, .bare .pushNil, .bare .return], []⟩, rfl, ?_⟩,
    ⟨.fresh ⟨#[.indexed .defineClass 0, .bare .return],
      [.classDescriptor ⟨"A", none, [], [], [], []⟩]⟩, _, rfl, ?_⟩⟩
  · exact (lowered_code_follows_evaluation .echo _ _ [.nil]).1 Session.initial.topLevel _ .empty _
      CodeUnit.poolFits_empty (by decide) rfl (.refl _)
  · exact (lowered_code_follows_evaluation .echo _ _ []).2.1 _ _ (by decide) rfl
  · exact (lowered_code_follows_evaluation .echo _ _ []).2.2 Session.initial _ _ (by decide) rfl

end Missive
