import Missive.Proofs.Steps.Crashes

/-!
# Higher limits

The limits of a machine are looked at only to fail.  No failure is caught, so a program that ends
without meeting a limit takes the same steps on a machine with higher limits, and ends in the same
way.

Two runs from machines that differ in their limits are compared computation by computation.  One
judgement says that a computation has the same result on both machines unless it meets a limit on
the one with the lower limits; it composes, and only three computations look at a limit themselves.
-/

namespace Missive

/-- The limits of the other configuration are as high or higher.  No limit of steps is the highest
one.  When collections are made is the same. -/
structure Config.Within (lower higher : Config) : Prop where
  frames : lower.maxFrames ≤ higher.maxFrames
  stack : lower.maxStackDepth ≤ higher.maxStackDepth
  steps : ∀ limit, higher.maxSteps = some limit →
    ∃ tighter, lower.maxSteps = some tighter ∧ tighter ≤ limit
  threshold : lower.collectionThreshold = higher.collectionThreshold

/-- The machine with other limits. -/
def Machine.withLimits (machine : Machine) (config : Config) : Machine := { machine with config }

namespace Exec

/-- The result of a computation on a machine, and the one with higher limits.  They differ only
where the machine has met a limit.  The limits and the count of the steps stay as they were. -/
inductive Raised {α : Type} (machine : Machine) (config : Config) :
    EStateM.Result Cause Machine α → EStateM.Result Cause Machine α → Prop
  | ok {answer : α} {reached : Machine} (terms : reached.config = machine.config)
      (count : reached.steps = machine.steps) :
      Raised machine config (.ok answer reached) (.ok answer (reached.withLimits config))
  | error {cause : Cause} {reached : Machine} (terms : reached.config = machine.config)
      (count : reached.steps = machine.steps) :
      Raised machine config (.error cause reached) (.error cause (reached.withLimits config))
  | limited {cause : Cause} {reached : Machine} {other : EStateM.Result Cause Machine α}
      (count : reached.steps = machine.steps) (met : cause.isOfLimit = true) :
      Raised machine config (.error cause reached) other

/-- Higher limits make no difference to a computation that meets none. -/
def Tolerant {α : Type} (x : Exec α) : Prop :=
  ∀ machine config, machine.config.Within config →
    Raised machine config (x machine) (x (machine.withLimits config))

variable {α β : Type}

/-! ## Composition -/

theorem tolerant_pure (answer : α) : Tolerant (pure answer : Exec α) :=
  fun _ _ _ => .ok rfl rfl

theorem tolerant_throw (cause : Cause) : Tolerant (throw cause : Exec α) :=
  fun _ _ _ => .error rfl rfl

theorem Tolerant.bind {x : Exec α} {f : α → Exec β} (first : Tolerant x)
    (next : ∀ answer, Tolerant (f answer)) : Tolerant (x >>= f) := by
  intro machine config within
  have raised := first machine config within
  change Raised machine config (EStateM.bind x f machine)
    (EStateM.bind x f (machine.withLimits config))
  unfold EStateM.bind
  generalize x machine = result at raised ⊢
  generalize x (machine.withLimits config) = other at raised ⊢
  cases raised with
  | ok terms count =>
      rename_i answer reached
      have later := next answer reached config (terms ▸ within)
      dsimp only
      generalize f answer reached = result at later ⊢
      generalize f answer (reached.withLimits config) = other at later ⊢
      cases later with
      | ok laterTerms laterCount =>
          exact .ok (laterTerms.trans terms) (laterCount.trans count)
      | error laterTerms laterCount =>
          exact .error (laterTerms.trans terms) (laterCount.trans count)
      | limited laterCount met =>
          exact .limited (laterCount.trans count) met
  | error terms count =>
      exact .error terms count
  | limited count met =>
      exact .limited count met

/-- What is read of the machine has nothing to do with its limits. -/
theorem tolerant_get_bind {f : Machine → Exec α}
    (blind : ∀ machine config, f (machine.withLimits config) = f machine)
    (next : ∀ machine, Tolerant (f machine)) : Tolerant (get >>= f) := by
  intro machine config within
  change Raised machine config (f machine machine)
    (f (machine.withLimits config) (machine.withLimits config))
  rw [blind machine config]
  exact next machine machine config within

theorem tolerant_modify {change : Machine → Machine}
    (keeps : ∀ machine config, machine.config.collectionThreshold = config.collectionThreshold →
      change (machine.withLimits config) = (change machine).withLimits config ∧
        (change machine).config = machine.config ∧ (change machine).steps = machine.steps) :
    Tolerant (modify change) := by
  intro machine config within
  obtain ⟨same, terms, count⟩ := keeps machine config within.threshold
  change Raised machine config (.ok () (change machine))
    (.ok () (change (machine.withLimits config)))
  rw [same]
  exact .ok terms count

theorem tolerant_modify_bind {change : Machine → Machine} {f : Unit → Exec α}
    (keeps : ∀ machine config, machine.config.collectionThreshold = config.collectionThreshold →
      change (machine.withLimits config) = (change machine).withLimits config ∧
        (change machine).config = machine.config ∧ (change machine).steps = machine.steps)
    (next : Tolerant (f ())) : Tolerant (modify change >>= f) :=
  (tolerant_modify keeps).bind fun _ => next

theorem tolerant_onStore (effect : Effect α) : Tolerant (onStore effect) := by
  intro machine config within
  have same : (machine.withLimits config).store = machine.store := rfl
  unfold onStore
  rw [same]
  cases effect machine.store with
  | ok answer store =>
      exact .ok rfl rfl
  | error cause store =>
      exact .error rfl rfl

theorem tolerant_frame : Tolerant frame := by
  refine tolerant_get_bind (fun _ _ => rfl) fun machine => ?_
  split
  · exact tolerant_pure _
  · exact tolerant_throw _

theorem tolerant_modifyFrame (change : Frame → Frame) : Tolerant (modifyFrame change) := by
  apply tolerant_modify
  rintro ⟨_, frames⟩ config _
  cases frames with
  | nil | cons _ _ =>
      exact ⟨rfl, rfl, rfl⟩

/-! ## Where limits are looked at -/

theorem tolerant_push (value : Value) : Tolerant (push value) := by
  intro machine config within
  cases frames : machine.frames with
  | nil =>
      have fails : ∀ other : Machine, other.frames = [] →
          push value other = .error .noProgram other := by
        intro other none
        unfold push
        rw [get_bind]
        change EStateM.bind frame _ other = _
        unfold EStateM.bind
        rw [frame_of_nil none]
      rw [fails machine frames, fails (machine.withLimits config) frames]
      exact .error rfl rfl
  | cons current rest =>
      by_cases full : machine.config.maxStackDepth ≤ current.stack.length
      · rw [push_of_full frames full]
        exact .limited rfl rfl
      · have room : current.stack.length < machine.config.maxStackDepth := Nat.lt_of_not_le full
        have moreRoom : current.stack.length < config.maxStackDepth :=
          Nat.lt_of_lt_of_le room within.stack
        have otherFrames : (machine.withLimits config).frames = current :: rest := frames
        rw [push_of_cons frames room, push_of_cons otherFrames moreRoom]
        exact .ok rfl rfl

theorem tolerant_checkDepth : Tolerant checkDepth := by
  intro machine config within
  unfold checkDepth
  rw [get_bind, get_bind]
  split
  · exact .limited rfl rfl
  · rename_i shallow
    have stillShallow : ¬ config.maxFrames ≤ machine.frames.length := by
      have higher := within.frames
      omega
    rw [if_neg (show ¬ (machine.withLimits config).config.maxFrames ≤
      (machine.withLimits config).frames.length from stillShallow)]
    exact .ok rfl rfl

/-! ## Operands and variables -/

theorem tolerant_pushTracked (value : Value) : Tolerant (pushTracked value) :=
  tolerant_modify_bind (fun _ _ _ => ⟨rfl, rfl, rfl⟩) (tolerant_push value)

theorem tolerant_pop : Tolerant pop := by
  refine tolerant_frame.bind fun current => ?_
  split
  · exact (tolerant_modifyFrame _).bind fun _ => tolerant_pure _
  · exact tolerant_throw _

theorem tolerant_peek : Tolerant peek := by
  refine tolerant_frame.bind fun current => ?_
  split
  · exact tolerant_pure _
  · exact tolerant_throw _

theorem tolerant_popMany (count : Nat) : Tolerant (popMany count) := by
  refine tolerant_frame.bind fun current => ?_
  dsimp only
  split
  · exact (tolerant_throw _).bind fun _ => (tolerant_modifyFrame _).bind fun _ => tolerant_pure _
  · exact (tolerant_modifyFrame _).bind fun _ => tolerant_pure _

theorem tolerant_constantAt? (index : Option Nat) : Tolerant (constantAt? index) :=
  tolerant_frame.bind fun _ => tolerant_pure _

theorem tolerant_nameOperand (instruction : Instruction) : Tolerant (nameOperand instruction) := by
  refine (tolerant_constantAt? _).bind fun constant => ?_
  split
  · exact tolerant_pure _
  · exact tolerant_throw _

theorem tolerant_expectLive (answer : Option α) : Tolerant (expectLive answer) := by
  cases answer with
  | some result =>
      exact tolerant_pure result
  | none =>
      exact tolerant_throw _

theorem tolerant_loadSlot (context : ContextId) (slot : Nat) : Tolerant (loadSlot context slot) :=
  tolerant_get_bind (fun _ _ => rfl) fun _ =>
    (tolerant_expectLive _).bind fun value => tolerant_push value

theorem tolerant_storeSlot (context : ContextId) (slot : Nat) (value : Value) :
    Tolerant (storeSlot context slot value) := by
  refine tolerant_get_bind (fun _ _ => rfl) fun machine => ?_
  split
  · exact tolerant_modify fun _ _ _ => ⟨rfl, rfl, rfl⟩
  · exact tolerant_throw _

theorem tolerant_outerSlot (instruction : Instruction) : Tolerant (outerSlot instruction) := by
  refine tolerant_get_bind (fun _ _ => rfl) fun machine => ?_
  refine tolerant_frame.bind fun current => (tolerant_expectLive _).bind fun found => ?_
  split
  · exact tolerant_pure _
  · exact tolerant_throw _

theorem tolerant_receiverRecord : Tolerant receiverRecord := by
  refine tolerant_frame.bind fun current => tolerant_get_bind (fun _ _ => rfl) fun machine => ?_
  dsimp only
  split
  · exact tolerant_pure _
  · exact tolerant_throw _

theorem tolerant_fieldFault (classId : ObjectId) (index : Nat) :
    Tolerant (fieldFault classId index) :=
  tolerant_get_bind (fun _ _ => rfl) fun _ => tolerant_pure _

theorem tolerant_loadField (index : Nat) : Tolerant (loadField index) := by
  refine tolerant_receiverRecord.bind fun record => ?_
  dsimp only
  split
  · exact tolerant_push _
  · exact (tolerant_fieldFault _ _).bind fun cause => tolerant_throw cause

theorem tolerant_storeField (index : Nat) : Tolerant (storeField index) := by
  refine tolerant_receiverRecord.bind fun record => tolerant_peek.bind fun value => ?_
  split
  · exact tolerant_modify fun _ _ _ => ⟨rfl, rfl, rfl⟩
  · exact (tolerant_fieldFault _ _).bind fun cause => tolerant_throw cause

theorem tolerant_owner (opcode : Opcode) : Tolerant (owner opcode) := by
  refine tolerant_frame.bind fun current => ?_
  split
  · exact tolerant_pure _
  · exact tolerant_throw _

theorem tolerant_loadClassVar (instruction : Instruction) :
    Tolerant (loadClassVar instruction) := by
  refine (tolerant_nameOperand _).bind fun name => (tolerant_owner _).bind fun id => ?_
  refine tolerant_get_bind (fun _ _ => rfl) fun machine => ?_
  split
  · exact tolerant_push _
  · exact tolerant_throw _

theorem tolerant_storeClassVar (instruction : Instruction) :
    Tolerant (storeClassVar instruction) := by
  refine (tolerant_nameOperand _).bind fun name => (tolerant_owner _).bind fun id => ?_
  refine tolerant_peek.bind fun value => tolerant_get_bind (fun _ _ => rfl) fun machine => ?_
  split
  · exact tolerant_modify fun _ _ _ => ⟨rfl, rfl, rfl⟩
  · exact tolerant_throw _

theorem tolerant_loadGlobal (instruction : Instruction) : Tolerant (loadGlobal instruction) := by
  refine (tolerant_nameOperand _).bind fun name => ?_
  refine tolerant_get_bind (fun _ _ => rfl) fun machine => ?_
  split
  · exact tolerant_push _
  · exact tolerant_throw _

theorem tolerant_storeGlobal (instruction : Instruction) : Tolerant (storeGlobal instruction) :=
  (tolerant_nameOperand _).bind fun _ => tolerant_peek.bind fun _ =>
    tolerant_modify fun _ _ _ => ⟨rfl, rfl, rfl⟩

/-! ## Activations and messages -/

theorem tolerant_enter (build : FrameId → Frame) : Tolerant (enter build) :=
  tolerant_modify fun _ _ _ => ⟨rfl, rfl, rfl⟩

theorem tolerant_newContext (outer : Option ContextId) (locals : List Value) :
    Tolerant (newContext outer locals) :=
  tolerant_get_bind (fun _ _ => rfl) fun _ =>
    tolerant_modify_bind (fun _ _ _ => ⟨rfl, rfl, rfl⟩) (tolerant_pure _)

theorem tolerant_callMethod (receiver : Value) (owner : ObjectId) (definition : ClassObject)
    (method : MethodDescriptor) (classSide : Bool) (arguments : List Value) :
    Tolerant (callMethod receiver owner definition method classSide arguments) :=
  tolerant_checkDepth.bind fun _ => (tolerant_newContext _ _).bind fun _ => tolerant_enter _

theorem tolerant_callBlock (block : BlockRef) (arguments : List Value) (loop : Option Iteration) :
    Tolerant (callBlock block arguments loop) := by
  have entered : Tolerant (checkDepth >>= fun _ =>
      newContext (some block.closure.outer) arguments >>= fun context => enter fun id =>
        { id, home := block.closure.home, kind := .block, code := block.closure.body, ip := 0
          stack := [], context, receiver := block.closure.receiver, owner := block.closure.owner
          classSide := block.closure.classSide, label := blockLabelStart ++ block.closure.origin
          loop }) :=
    tolerant_checkDepth.bind fun _ => (tolerant_newContext _ _).bind fun _ => tolerant_enter _
  unfold callBlock
  dsimp only
  split
  · exact (tolerant_throw _).bind fun _ => entered
  · exact entered

theorem tolerant_write (text : String) : Tolerant (write text) := by
  refine tolerant_get_bind (fun _ _ => rfl) fun machine => ?_
  dsimp only
  split
  · split
    · exact tolerant_throw _
    · exact tolerant_pure ()
  · exact tolerant_modify fun _ _ _ => ⟨rfl, rfl, rfl⟩

theorem tolerant_perform (action : Action) : Tolerant (perform action) := by
  cases action with
  | answer value =>
      exact tolerant_pushTracked value
  | call block arguments loop =>
      exact tolerant_callBlock block arguments loop
  | write text value =>
      exact (tolerant_write text).bind fun _ => tolerant_pushTracked value

theorem tolerant_respond (effect : Effect Action) :
    Tolerant (do perform (← onStore effect)) :=
  (tolerant_onStore effect).bind tolerant_perform

theorem tolerant_checkArgumentCount (selector : Selector) (given : Nat) :
    Tolerant (checkArgumentCount selector given) := by
  unfold checkArgumentCount
  split
  · exact tolerant_throw _
  · exact tolerant_pure ()

theorem tolerant_respondUniversally (receiver : Value) (selector : Selector)
    (arguments : List Value) : Tolerant (respondUniversally receiver selector arguments) := by
  refine tolerant_get_bind (fun _ _ => rfl) fun machine => ?_
  dsimp only
  split
  · exact tolerant_respond _
  · exact tolerant_throw _

theorem tolerant_send (receiver : Value) (selector : Selector) (arguments : List Value) :
    Tolerant (send receiver selector arguments) := by
  refine (tolerant_checkArgumentCount _ _).bind fun _ => ?_
  refine tolerant_get_bind (fun _ _ => rfl) fun machine => ?_
  dsimp only
  split
  · exact tolerant_respond _
  · split
    · exact tolerant_callMethod _ _ _ _ _ _
    · exact tolerant_respondUniversally _ _ _

theorem tolerant_superSend (receiver : Value) (selector : Selector) (arguments : List Value) :
    Tolerant (superSend receiver selector arguments) := by
  refine (tolerant_checkArgumentCount _ _).bind fun _ => tolerant_frame.bind fun current => ?_
  refine (tolerant_owner _).bind fun id => tolerant_get_bind (fun _ _ => rfl) fun machine => ?_
  split
  · exact tolerant_callMethod _ _ _ _ _ _
  · exact tolerant_respondUniversally _ _ _

theorem tolerant_takeMessage (instruction : Instruction) : Tolerant (takeMessage instruction) := by
  refine (tolerant_constantAt? _).bind fun constant => ?_
  split
  · exact (tolerant_popMany _).bind fun _ => tolerant_pop.bind fun _ => tolerant_pure _
  · exact tolerant_throw _

/-! ## Objects -/

theorem tolerant_pushConstant (instruction : Instruction) :
    Tolerant (pushConstant instruction) := by
  refine (tolerant_constantAt? _).bind fun constant => ?_
  split
  all_goals first | exact tolerant_push _ | exact tolerant_throw _

theorem tolerant_newInstance : Tolerant newInstance := by
  refine tolerant_pop.bind fun value => tolerant_get_bind (fun _ _ => rfl) fun machine => ?_
  dsimp only
  split
  · exact tolerant_modify_bind (fun _ _ _ => ⟨rfl, rfl, rfl⟩) (tolerant_pushTracked _)
  · exact tolerant_throw _

theorem tolerant_superclassOf (descriptor : ClassDescriptor) :
    Tolerant (superclassOf descriptor) := by
  unfold superclassOf
  split
  · exact tolerant_pure _
  · refine tolerant_get_bind (fun _ _ => rfl) fun machine => ?_
    split
    · exact tolerant_pure _
    · exact tolerant_throw _

theorem tolerant_defineClass (instruction : Instruction) : Tolerant (defineClass instruction) := by
  refine (tolerant_constantAt? _).bind fun constant => ?_
  split
  · refine (tolerant_superclassOf _).bind fun superclass => ?_
    refine tolerant_get_bind (fun _ _ => rfl) fun machine => ?_
    exact tolerant_modify_bind (fun _ _ _ => ⟨rfl, rfl, rfl⟩) (tolerant_pushTracked _)
  · exact tolerant_throw _
  · exact tolerant_throw _

theorem tolerant_makeClosure (instruction : Instruction) : Tolerant (makeClosure instruction) := by
  refine (tolerant_constantAt? _).bind fun constant => ?_
  split
  · refine tolerant_frame.bind fun current => tolerant_get_bind (fun _ _ => rfl) fun machine => ?_
    exact tolerant_modify_bind (fun _ _ _ => ⟨rfl, rfl, rfl⟩) (tolerant_pushTracked _)
  · exact tolerant_throw _

theorem tolerant_makeArray (count : Nat) : Tolerant (makeArray count) := by
  refine (tolerant_popMany _).bind fun items => tolerant_get_bind (fun _ _ => rfl) fun machine => ?_
  exact tolerant_modify_bind (fun _ _ _ => ⟨rfl, rfl, rfl⟩) (tolerant_pushTracked _)

theorem tolerant_makeDictionary (count : Nat) : Tolerant (makeDictionary count) := by
  refine (tolerant_popMany _).bind fun items => (tolerant_onStore _).bind fun entries => ?_
  refine tolerant_get_bind (fun _ _ => rfl) fun machine => ?_
  exact tolerant_modify_bind (fun _ _ _ => ⟨rfl, rfl, rfl⟩) (tolerant_pushTracked _)

/-! ## Returns and jumps -/

theorem tolerant_complete (value : Value) : Tolerant (complete value) := by
  refine tolerant_get_bind (fun _ _ => rfl) fun machine => ?_
  split
  · exact tolerant_throw _
  · refine tolerant_modify_bind (fun _ _ _ => ⟨rfl, rfl, rfl⟩) ?_
    split
    · exact tolerant_modify_bind (fun _ _ _ => ⟨rfl, rfl, rfl⟩) (tolerant_pure _)
    · split
      · exact (tolerant_push value).bind fun _ => tolerant_pure _
      · exact (tolerant_onStore _).bind fun action =>
          (tolerant_perform action).bind fun _ => tolerant_pure _

theorem tolerant_returnFromHome (value : Value) : Tolerant (returnFromHome value) := by
  refine tolerant_frame.bind fun current => ?_
  dsimp only
  split
  · refine tolerant_get_bind (fun _ _ => rfl) fun machine => ?_
    split
    · exact tolerant_modify_bind (fun _ _ _ => ⟨rfl, rfl, rfl⟩) (tolerant_complete value)
    · exact (tolerant_throw _).bind fun _ => tolerant_complete value
  · exact tolerant_complete value

theorem tolerant_jumpIfFalse (operand : Int32) : Tolerant (jumpIfFalse operand) := by
  refine tolerant_pop.bind fun value => ?_
  split
  · exact tolerant_modifyFrame _
  · exact tolerant_pure ()
  · exact tolerant_get_bind (fun _ _ => rfl) fun _ => tolerant_throw _

theorem Tolerant.andGoOn {effect : Exec Unit} (tolerant : Tolerant effect) :
    Tolerant (andGoOn effect) :=
  tolerant.bind fun _ => tolerant_pure _

/-! ## Instructions -/

theorem tolerant_execute (instruction : Instruction) : Tolerant (execute instruction) := by
  unfold execute
  dsimp only
  cases instruction.opcode with
  | pushConstant => exact (tolerant_pushConstant _).andGoOn
  | pop => exact (tolerant_pop.bind fun _ => tolerant_pure ()).andGoOn
  | dup => exact (tolerant_peek.bind tolerant_push).andGoOn
  | loadLocal => exact (tolerant_frame.bind fun _ => tolerant_loadSlot _ _).andGoOn
  | storeLocal =>
      exact (tolerant_peek.bind fun _ => tolerant_frame.bind fun _ =>
        tolerant_storeSlot _ _ _).andGoOn
  | loadOuter => exact ((tolerant_outerSlot _).bind fun _ => tolerant_loadSlot _ _).andGoOn
  | storeOuter =>
      exact ((tolerant_outerSlot _).bind fun _ => tolerant_peek.bind fun _ =>
        tolerant_storeSlot _ _ _).andGoOn
  | loadField => exact (tolerant_loadField _).andGoOn
  | storeField => exact (tolerant_storeField _).andGoOn
  | loadClassVar => exact (tolerant_loadClassVar _).andGoOn
  | storeClassVar => exact (tolerant_storeClassVar _).andGoOn
  | loadGlobal => exact (tolerant_loadGlobal _).andGoOn
  | storeGlobal => exact (tolerant_storeGlobal _).andGoOn
  | send => exact ((tolerant_takeMessage _).bind fun _ => tolerant_send _ _ _).andGoOn
  | superSend => exact ((tolerant_takeMessage _).bind fun _ => tolerant_superSend _ _ _).andGoOn
  | jump => exact (tolerant_modifyFrame _).andGoOn
  | jumpIfFalse => exact (tolerant_jumpIfFalse _).andGoOn
  | pushSelf => exact (tolerant_frame.bind fun _ => tolerant_push _).andGoOn
  | pushNil | pushTrue | pushFalse => exact (tolerant_push _).andGoOn
  | newInstance => exact tolerant_newInstance.andGoOn
  | defineClass => exact (tolerant_defineClass _).andGoOn
  | makeClosure => exact (tolerant_makeClosure _).andGoOn
  | makeArray => exact (tolerant_makeArray _).andGoOn
  | makeDictionary => exact (tolerant_makeDictionary _).andGoOn
  | «return» => exact tolerant_pop.bind tolerant_complete
  | nonLocalReturn => exact tolerant_pop.bind tolerant_returnFromHome

theorem tolerant_instructionStep : Tolerant instructionStep := by
  refine tolerant_frame.bind fun current => ?_
  split
  · exact (tolerant_modifyFrame _).bind fun _ => tolerant_execute _
  · exact tolerant_complete _

/-! ## Steps -/

theorem collectContexts_withLimits {machine : Machine} {config : Config}
    (same : machine.config.collectionThreshold = config.collectionThreshold) :
    (machine.withLimits config).collectContexts = machine.collectContexts.withLimits config := by
  simp only [Machine.collectContexts, Machine.withLimits, same]
  rfl

theorem collectObjects_withLimits {machine : Machine} {config : Config}
    (same : machine.config.collectionThreshold = config.collectionThreshold) :
    (machine.withLimits config).collectObjects = machine.collectObjects.withLimits config := by
  simp only [Machine.collectObjects, Machine.withLimits, same]
  rfl

theorem tolerant_collectIfNeeded : Tolerant collectIfNeeded := by
  refine tolerant_modify_bind ?_ (tolerant_modify ?_)
  · intro machine config same
    have sameQuestion : (machine.withLimits config).nextCollection ≤
        (machine.withLimits config).contexts.live ↔
          machine.nextCollection ≤ machine.contexts.live := Iff.rfl
    by_cases due : machine.nextCollection ≤ machine.contexts.live
    · rw [if_pos (sameQuestion.mpr due), if_pos due]
      exact ⟨collectContexts_withLimits same, rfl, rfl⟩
    · rw [if_neg (mt sameQuestion.mp due), if_neg due]
      exact ⟨rfl, rfl, rfl⟩
  · intro machine config same
    have sameQuestion : (machine.withLimits config).nextObjectCollection ≤
        (machine.withLimits config).store.trackedCount ↔
          machine.nextObjectCollection ≤ machine.store.trackedCount := Iff.rfl
    by_cases due : machine.nextObjectCollection ≤ machine.store.trackedCount
    · have garbage : (machine.withLimits config).collectGarbage =
          machine.collectGarbage.withLimits config := by
        unfold Machine.collectGarbage
        rw [collectContexts_withLimits same]
        exact collectObjects_withLimits same
      rw [if_pos (sameQuestion.mpr due), if_pos due]
      exact ⟨garbage, rfl, rfl⟩
    · rw [if_neg (mt sameQuestion.mp due), if_neg due]
      exact ⟨rfl, rfl, rfl⟩

/-- A step is charged first.  Then higher limits make no difference to what it does. -/
theorem raised_step {machine : Machine} {config : Config} (within : machine.config.Within config) :
    Raised { machine with steps := machine.steps + 1 } config (step machine)
      (step (machine.withLimits config)) := by
  by_cases room : ∀ limit, machine.config.maxSteps = some limit → machine.steps < limit
  · have moreRoom : ∀ limit, (machine.withLimits config).config.maxSteps = some limit →
        (machine.withLimits config).steps < limit := by
      intro limit isLimit
      obtain ⟨tighter, isTighter, less⟩ := within.steps limit isLimit
      exact Nat.lt_of_lt_of_le (room tighter isTighter) less
    have tolerant : Tolerant (collectIfNeeded >>= fun _ => instructionStep) :=
      tolerant_collectIfNeeded.bind fun _ => tolerant_instructionStep
    rw [step_eq, bind_of_ok (countStep_of_within room), bind_of_ok (countStep_of_within moreRoom)]
    exact tolerant _ config within
  · obtain ⟨limit, isLimit, spent⟩ : ∃ limit, machine.config.maxSteps = some limit ∧
        limit ≤ machine.steps := by
      simpa using room
    rw [step_of_spent isLimit spent]
    exact .limited rfl rfl

end Exec

theorem Config.Within.refl (config : Config) : config.Within config :=
  ⟨Nat.le_refl _, Nat.le_refl _, fun limit isLimit => ⟨limit, isLimit, Nat.le_refl _⟩, rfl⟩

namespace Machine

variable {machine final : Machine} {config : Config} {result : Except Fault Value} {fuel : Nat}

/-- The program has not ended because a limit was reached. -/
def Unmet {α : Type} (result : Except Fault α) : Prop :=
  ∀ fault, result = .error fault → fault.cause.isOfLimit = false

theorem step_withLimits (within : machine.config.Within config) (unmet : Unmet machine.step.2) :
    (machine.withLimits config).step = (machine.step.1.withLimits config, machine.step.2) ∧
      machine.step.1.config = machine.config := by
  cases frames : machine.frames with
  | nil =>
      have otherFrames : (machine.withLimits config).frames = [] := frames
      unfold step
      rw [frames, otherFrames]
      cases isResult : machine.result with
      | none | some _ =>
          have otherResult : (machine.withLimits config).result = machine.result := rfl
          rw [otherResult, isResult]
          exact ⟨rfl, rfl⟩
  | cons current rest =>
      have otherFrames : (machine.withLimits config).frames = current :: rest := frames
      have raised := Exec.raised_step within
      rw [step_of_cons frames] at unmet
      rw [step_of_cons frames, step_of_cons otherFrames]
      generalize Exec.step machine = outcome at raised unmet ⊢
      generalize Exec.step (machine.withLimits config) = other at raised ⊢
      cases raised with
      | ok terms _ =>
          exact ⟨rfl, terms⟩
      | error terms _ =>
          exact ⟨rfl, terms⟩
      | limited _ met =>
          have notMet := unmet _ rfl
          rw [met] at notMet
          cases notMet

theorem finish_withLimits (within : machine.config.Within config)
    (finished : finish fuel machine = (final, some result)) (unmet : Unmet result) :
    finish fuel (machine.withLimits config) = (final.withLimits config, some result) := by
  induction fuel generalizing machine with
  | zero =>
      cases finished
  | succ fuel inductionHypothesis =>
      rw [finish] at finished
      have later := step_withLimits within
      rcases stepped : machine.step with ⟨next, fault | state⟩
      · rw [stepped] at finished later
        cases finished
        rw [finish, (later (fun _ isFault => unmet _ (by rw [Except.error.inj isFault]))).1]
      · rw [stepped] at finished later
        obtain ⟨same, terms⟩ := later (by intro fault isFault; cases isFault)
        rw [finish, same]
        cases state with
        | running =>
            exact inductionHypothesis (terms ▸ within) finished
        | finished value =>
            cases finished
            rfl

/-! ## A limit of steps -/

theorem step_ne_running {next : Machine} (ended : machine.frames = []) :
    machine.step ≠ (next, .ok .running) := by
  unfold step
  rw [ended]
  cases machine.result with
  | none | some _ =>
      intro same
      cases same

/-- A step of a program that is under way counts as one. -/
theorem steps_step {current : Frame} {rest : List Frame}
    (frames : machine.frames = current :: rest) :
    machine.step.1.steps = machine.steps + 1 ∧
      ∀ state, machine.step.2 = .ok state → machine.step.1.config = machine.config := by
  have raised := Exec.raised_step (Config.Within.refl machine.config)
  rw [step_of_cons frames]
  generalize Exec.step machine = outcome at raised ⊢
  generalize Exec.step (machine.withLimits machine.config) = other at raised
  cases raised with
  | ok terms count =>
      exact ⟨count, fun _ _ => terms⟩
  | error terms count =>
      exact ⟨count, fun _ _ => terms⟩
  | limited count _ =>
      exact ⟨count, fun _ isState => by cases isState⟩

/-- Each step is charged, and none is left in the end. -/
theorem finish_of_budget {budget : Nat} (isBudget : machine.config.maxSteps = some budget)
    (few : machine.steps ≤ budget) (enough : budget < machine.steps + fuel) :
    ∃ final result, finish fuel machine = (final, some result) ∧ final.steps ≤ budget + 1 := by
  induction fuel generalizing machine with
  | zero =>
      omega
  | succ fuel inductionHypothesis =>
      rw [finish]
      cases frames : machine.frames with
      | nil =>
          rcases stepped : machine.step with ⟨next, fault | state⟩
          all_goals
            have unchanged : next.steps = machine.steps := by
              rw [← step_fst_of_nil frames, stepped]
          · exact ⟨next, .error fault, rfl, by omega⟩
          · cases state with
            | running =>
                exact (step_ne_running frames stepped).elim
            | finished value =>
                exact ⟨next, .ok value, rfl, by omega⟩
      | cons current rest =>
          obtain ⟨count, terms⟩ := steps_step frames
          by_cases spent : machine.steps = budget
          · have exceeded := Exec.step_of_spent isBudget (Nat.le_of_eq spent.symm)
            rw [step_of_cons frames, exceeded]
            refine ⟨_, _, rfl, ?_⟩
            dsimp only
            omega
          · rcases stepped : machine.step with ⟨next, fault | state⟩
            · rw [stepped] at count
              refine ⟨next, .error fault, rfl, ?_⟩
              dsimp only at count
              omega
            · rw [stepped] at count terms
              dsimp only at count
              cases state with
              | running =>
                  refine inductionHypothesis (terms _ rfl ▸ isBudget) ?_ ?_
                  · omega
                  · omega
              | finished value =>
                  exact ⟨next, .ok value, rfl, by omega⟩

/-! ## Programs -/

theorem config_load (machine : Machine) (code : CodeUnit) :
    (machine.load code).1.config = machine.config := by
  unfold load
  cases code.verify <;> rfl

theorem config_loadInSession (machine : Machine) (code : CodeUnit) :
    (machine.loadInSession code).1.config = machine.config := by
  unfold loadInSession
  cases code.verify <;> rfl

theorem load_withLimits (machine : Machine) (config : Config) (code : CodeUnit) :
    (machine.withLimits config).load code =
      ((machine.load code).1.withLimits config, (machine.load code).2) := by
  unfold load
  cases code.verify <;> rfl

theorem loadInSession_withLimits (machine : Machine) (config : Config) (code : CodeUnit) :
    (machine.withLimits config).loadInSession code =
      ((machine.loadInSession code).1.withLimits config, (machine.loadInSession code).2) := by
  unfold loadInSession
  cases code.verify <;> rfl

theorem finishLoaded_withLimits {loaded : Machine × Except Fault Unit}
    (within : loaded.1.config.Within config)
    (finished : finishLoaded fuel loaded = (final, some result)) (unmet : Unmet result) :
    finishLoaded fuel (loaded.1.withLimits config, loaded.2) =
      (final.withLimits config, some result) := by
  obtain ⟨machine, fault | _⟩ := loaded
  · cases finished
    rfl
  · exact finish_withLimits within finished unmet

/-- The run has come to an end after so many steps at most.  It has returned, or the machine went
down in a step whose instruction makes it do so. -/
def EndsWithin (most fuel : Nat) (start : Machine)
    (ended : Machine × Option (Except Fault Value)) : Prop :=
  ∃ final result, ended = (final, some result) ∧ final.steps ≤ most ∧
    ∀ fault crash, result = .error fault → fault.cause = .crash crash →
      ∃ stage ∈ start.stages fuel, stage.step.2 = .error fault ∧ stage.Provokes crash

theorem endsWithin_start (machine : Machine) {budget : Nat}
    (isBudget : machine.config.maxSteps = some budget) (code : CodeUnit) (context : ContextId) :
    EndsWithin (budget + 1) (budget + 1) (machine.start code context)
      (finish (budget + 1) (machine.start code context)) := by
  have started : (machine.start code context).steps = 0 := rfl
  have stillBudget : (machine.start code context).config.maxSteps = some budget := isBudget
  obtain ⟨final, result, finished, few⟩ : ∃ final result,
      finish (budget + 1) (machine.start code context) = (final, some result) ∧
        final.steps ≤ budget + 1 :=
    finish_of_budget stillBudget (by omega) (by omega)
  refine ⟨final, result, finished, few, fun fault crash failed isCrash => ?_⟩
  subst failed
  exact exists_provoking_stage finished isCrash

/-- A program that ends without reaching a limit ends in the same way under higher limits: with the
same value or the same fault, including the activations that it reports, and with a machine that
differs in nothing but its limits.  With a limit of steps, every program ends, be it that the
machine goes down in one of the steps. -/
theorem higher_limits_change_nothing (machine : Machine) (config : Config)
    (within : machine.config.Within config) (code : CodeUnit) :
    (∀ fuel final result, machine.run fuel code = (final, some result) → Unmet result →
      (machine.withLimits config).run fuel code = (final.withLimits config, some result)) ∧
    (∀ fuel final result, machine.runInSession fuel code = (final, some result) → Unmet result →
      (machine.withLimits config).runInSession fuel code =
        (final.withLimits config, some result)) ∧
    ∀ budget, machine.config.maxSteps = some budget → code.verify = .ok () →
      EndsWithin (budget + 1) (budget + 1) (machine.load code).1
          (machine.run (budget + 1) code) ∧
        EndsWithin (budget + 1) (budget + 1) (machine.loadInSession code).1
          (machine.runInSession (budget + 1) code) := by
  refine ⟨?_, ?_, ?_⟩
  · intro fuel final result finished unmet
    unfold run
    rw [load_withLimits]
    exact finishLoaded_withLimits (config_load machine code ▸ within) finished unmet
  · intro fuel final result finished unmet
    unfold runInSession
    rw [loadInSession_withLimits]
    exact finishLoaded_withLimits (config_loadInSession machine code ▸ within) finished unmet
  · intro budget isBudget verified
    simp only [run, runInSession, load, loadInSession, verified, finishLoaded]
    constructor
    · exact endsWithin_start
        { machine with contexts := (machine.contexts.alloc ⟨#[], none⟩).2 } isBudget code _
    · exact endsWithin_start machine isBudget code machine.sessionContext

/-- A program of two steps ends in the same way whether two steps are allowed or any number. -/
theorem higher_limits_change_nothing_two_steps :
    let machine := new { maxSteps := some 2 } none
    let code : CodeUnit := ⟨#[⟨.pushTrue, 0⟩, ⟨.return, 0⟩], []⟩
    ((machine.withLimits {}).run 3 code).2 = some (.ok (.bool true)) ∧
      EndsWithin 3 3 (machine.load code).1 (machine.run 3 code) := by
  intro machine code
  have within : machine.config.Within {} := by
    constructor
    · decide
    · decide
    · intro limit isLimit
      cases isLimit
    · rfl
  have result : (machine.run 3 code).2 = some (.ok (.bool true)) := by
    decide +kernel
  have finished : machine.run 3 code = ((machine.run 3 code).1, some (.ok (.bool true))) := by
    rw [← result]
  have unmet : Unmet (.ok (.bool true) : Except Fault Value) := by
    intro fault isFault
    cases isFault
  have holds := higher_limits_change_nothing machine {} within code
  refine ⟨?_, (holds.2.2 2 rfl (by decide)).1⟩
  rw [holds.1 3 _ _ finished unmet]

end Machine

end Missive
