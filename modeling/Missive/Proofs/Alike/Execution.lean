import Missive.Machine.Execution
import Missive.Proofs.Alike.Arenas
import Missive.Proofs.Alike.Messages
import Missive.Proofs.Compile.Plan
import Missive.Proofs.Machine.Operands

/-!
# Instructions agree

An instruction does the same on two linked machines: both go on, in linked states, or both fail
for the same cause.  No instruction meets a stale handle, because every handle that it can get at
is linked, and linked contexts are live.
-/

namespace Missive

namespace Link

variable {link later : Link} {left right : Machine}

/-- The linked machines after a change of their memories. -/
theorem Machines.remember (machines : link.Machines left right) (within : Within link later)
    {leftStore rightStore : Store} {leftArena rightArena : Arena}
    (stores : later.Stores leftStore rightStore) (arenas : later.Arenas leftArena rightArena) :
    later.Machines { left with store := leftStore, contexts := leftArena }
      { right with store := rightStore, contexts := rightArena } where
  stores := stores
  arenas := arenas
  frames := machines.frames.imp fun _ _ frames => within.frames frames
  globals := machines.globals
  globalValues := within.allKnown machines.globalValues
  sessionContext := within.contexts machines.sessionContext
  numbers := within.pairing ▸ machines.numbers
  steps := within.pairing ▸ machines.steps
  unlimited := within.pairing ▸ machines.unlimited
  result := machines.result
  resultValue := fun value member => within.knows (machines.resultValue value member)
  output := machines.output
  maxFrames := machines.maxFrames
  maxSteps := machines.maxSteps
  maxStackDepth := machines.maxStackDepth

/-- The linked machines after a change of their stores. -/
theorem Machines.withStores (machines : link.Machines left right) (grows : Grows link later)
    {leftStore rightStore : Store} (stores : later.Stores leftStore rightStore) :
    later.Machines { left with store := leftStore } { right with store := rightStore } :=
  machines.remember grows.within stores (machines.arenas.grow grows)

/-- The linked machines with other activations under way. -/
theorem Machines.withFrames (machines : link.Machines left right)
    {leftFrames rightFrames : List Frame}
    (frames : List.Forall₂ link.Frames leftFrames rightFrames) :
    link.Machines { left with frames := leftFrames } { right with frames := rightFrames } :=
  { machines with frames }

theorem Frames.shape {leftFrame rightFrame : Frame} (frames : link.Frames leftFrame rightFrame) :
    ∃ id home code ip context loop, rightFrame =
      { leftFrame with
        id := id, home := home, code := code, ip := ip, context := context, loop := loop } :=
  ⟨_, _, _, _, _, _, frames.same⟩

theorem Machines.frames_cases (machines : link.Machines left right) :
    (left.frames = [] ∧ right.frames = []) ∨
      ∃ leftFrame leftRest rightFrame rightRest, left.frames = leftFrame :: leftRest ∧
        right.frames = rightFrame :: rightRest ∧ link.Frames leftFrame rightFrame ∧
        List.Forall₂ link.Frames leftRest rightRest := by
  have frames := machines.frames
  generalize left.frames = leftFrames, right.frames = rightFrames at frames
  cases frames with
  | nil =>
      exact Or.inl ⟨rfl, rfl⟩
  | cons innermost below =>
      exact Or.inr ⟨_, _, _, _, rfl, rfl, innermost, below⟩

end Link

namespace Exec

/-- Two computations on linked machines agree. -/
def Agrees {α β : Type} (link : Link) (left right : Machine) (x : Exec α) (y : Exec β)
    (answers : Link → α → β → Prop) : Prop :=
  Agreement (fun later leftReached rightReached =>
      Link.Within link later ∧ later.Machines leftReached rightReached)
    (fun cause => cause ≠ .staleContext) answers (x left) (y right)

/-- Nothing is said about the answers. -/
def anyAnswer {α : Type} (_ : Link) (_ _ : α) : Prop := True

/-- The answers are the same. -/
def sameAnswer {α : Type} (_ : Link) (a b : α) : Prop := a = b

variable {α β γ δ : Type} {link : Link} {left right : Machine} {answers : Link → α → β → Prop}

theorem agrees_pure {a : α} {b : β} (machines : link.Machines left right)
    (answered : answers link a b) : Agrees link left right (pure a) (pure b) answers :=
  .ok ⟨Link.Within.refl link, machines⟩ answered

theorem agrees_throw {cause : Cause} (machines : link.Machines left right)
    (notStale : cause ≠ .staleContext) :
    Agrees link left right (throw cause) (throw cause) answers :=
  .error ⟨Link.Within.refl link, machines⟩ notStale

theorem agrees_throw_bind {cause : Cause} {f : γ → Exec α} {g : δ → Exec β}
    (machines : link.Machines left right) (notStale : cause ≠ .staleContext) :
    Agrees link left right (throw cause >>= f) (throw cause >>= g) answers :=
  .error ⟨Link.Within.refl link, machines⟩ notStale

theorem Agrees.weaken {earlier later : Link} {x : Exec α} {y : Exec β}
    (within : Link.Within earlier later) (agrees : Agrees later left right x y answers) :
    Agrees earlier left right x y answers :=
  Agreement.mono agrees (fun ⟨furtherWithin, machines⟩ => ⟨within.trans furtherWithin, machines⟩)
    (fun notStale => notStale) (fun answered => answered)

theorem Agrees.bind {answersLater : Link → γ → δ → Prop} {x : Exec α} {y : Exec β}
    {f : α → Exec γ} {g : β → Exec δ} (first : Agrees link left right x y answers)
    (next : ∀ {later leftReached rightReached a b}, Link.Within link later →
      later.Machines leftReached rightReached → answers later a b →
      Agrees later leftReached rightReached (f a) (g b) answersLater) :
    Agrees link left right (x >>= f) (y >>= g) answersLater :=
  Agreement.bind first (fun reached => reached)
    fun ⟨within, machines⟩ answered => (next within machines answered).weaken within

/-- What follows may depend on the states reached. -/
theorem Agrees.bind_of_ok {answersLater : Link → γ → δ → Prop} {x : Exec α} {y : Exec β}
    {f : α → Exec γ} {g : β → Exec δ} (first : Agrees link left right x y answers)
    (next : ∀ {later leftReached rightReached a b}, x left = .ok a leftReached →
      y right = .ok b rightReached → Link.Within link later →
      later.Machines leftReached rightReached → answers later a b →
      Agrees later leftReached rightReached (f a) (g b) answersLater) :
    Agrees link left right (x >>= f) (y >>= g) answersLater :=
  Agreement.bind_of_ok first (fun reached => reached)
    fun leftOutcome rightOutcome ⟨within, machines⟩ answered =>
      (next leftOutcome rightOutcome within machines answered).weaken within

theorem agrees_get_bind {f : Machine → Exec α} {g : Machine → Exec β}
    (next : Agrees link left right (f left) (g right) answers) :
    Agrees link left right (get >>= f) (get >>= g) answers :=
  next

theorem agrees_modify {later : Link} {change otherChange : Machine → Machine}
    (within : Link.Within link later)
    (machines : later.Machines (change left) (otherChange right)) :
    Agrees link left right (modify change) (modify otherChange) anyAnswer :=
  .ok ⟨within, machines⟩ trivial

theorem agrees_modify_bind {later : Link} {change otherChange : Machine → Machine}
    {f : Unit → Exec α} {g : Unit → Exec β} (within : Link.Within link later)
    (next : Agrees later (change left) (otherChange right) (f ()) (g ()) answers) :
    Agrees link left right (modify change >>= f) (modify otherChange >>= g) answers :=
  Agrees.weaken within next

theorem agrees_onStore {x : Effect α} {y : Effect β} (machines : link.Machines left right)
    (effects : Effect.Agrees link left.store right.store x y answers) :
    Agrees link left right (onStore x) (onStore y) answers := by
  unfold Agrees onStore
  unfold Effect.Agrees at effects
  generalize x left.store = leftResult, y right.store = rightResult at effects ⊢
  cases effects with
  | ok reached answered =>
      exact .ok ⟨reached.grows.within, machines.withStores reached.grows reached.stores⟩ answered
  | error reached external =>
      refine .error ⟨reached.grows.within, machines.withStores reached.grows reached.stores⟩ ?_
      rintro rfl
      cases external

/-- Both go on with the same outcome of reading the objects, or crash with it. -/
theorem agrees_settle_bind {leftOutcome rightOutcome : Store → Except Crash γ} {f : γ → Exec α}
    {g : γ → Exec β} (machines : link.Machines left right)
    (same : leftOutcome left.store = rightOutcome right.store)
    (next : ∀ result, leftOutcome left.store = .ok result →
      Agrees link left right (f result) (g result) answers) :
    Agrees link left right ((onStore do settle (leftOutcome (← get))) >>= f)
      ((onStore do settle (rightOutcome (← get))) >>= g) answers := by
  unfold Agrees
  rw [onStore_settle_bind, onStore_settle_bind, ← same]
  cases answered : leftOutcome left.store with
  | ok result =>
      exact next result answered
  | error crash =>
      exact .error ⟨Link.Within.refl link, machines⟩ nofun

/-! ## The innermost activation -/

theorem frame_of_nil {machine : Machine} (none : machine.frames = []) :
    frame machine = .error .noProgram machine := by
  cases machine
  cases none
  rfl

theorem frame_of_cons {machine : Machine} {innermost : Frame} {rest : List Frame}
    (frames : machine.frames = innermost :: rest) : frame machine = .ok innermost machine := by
  cases machine
  cases frames
  rfl

theorem agrees_innermost_bind {f g : Frame → Exec α} {answers : Link → α → α → Prop}
    (machines : link.Machines left right)
    (next : ∀ {leftFrame rightFrame}, left.frames.head? = some leftFrame →
      right.frames.head? = some rightFrame → link.Frames leftFrame rightFrame →
      Agrees link left right (f leftFrame) (g rightFrame) answers) :
    Agrees link left right (frame >>= f) (frame >>= g) answers := by
  change Agreement _ _ _ (EStateM.bind frame f left) (EStateM.bind frame g right)
  unfold EStateM.bind
  rcases machines.frames_cases with ⟨leftNone, rightNone⟩ |
    ⟨leftFrame, leftRest, rightFrame, rightRest, leftFrames, rightFrames, frames, _⟩
  · rw [frame_of_nil leftNone, frame_of_nil rightNone]
    exact .error ⟨Link.Within.refl link, machines⟩ (by decide)
  · rw [frame_of_cons leftFrames, frame_of_cons rightFrames]
    exact next (congrArg List.head? leftFrames) (congrArg List.head? rightFrames) frames

theorem agrees_frame_bind {f g : Frame → Exec α} {answers : Link → α → α → Prop}
    (machines : link.Machines left right)
    (next : ∀ {leftFrame rightFrame}, link.Frames leftFrame rightFrame →
      Agrees link left right (f leftFrame) (g rightFrame) answers) :
    Agrees link left right (frame >>= f) (frame >>= g) answers :=
  agrees_innermost_bind machines fun _ _ => next

theorem agrees_modifyFrame {change otherChange : Frame → Frame}
    (machines : link.Machines left right)
    (changed : ∀ {leftFrame rightFrame}, left.frames.head? = some leftFrame →
      right.frames.head? = some rightFrame → link.Frames leftFrame rightFrame →
      link.Frames (change leftFrame) (otherChange rightFrame)) :
    Agrees link left right (modifyFrame change) (modifyFrame otherChange) anyAnswer := by
  apply agrees_modify (Link.Within.refl link)
  rcases machines.frames_cases with ⟨leftNone, rightNone⟩ |
    ⟨leftFrame, leftRest, rightFrame, rightRest, leftFrames, rightFrames, frames, below⟩
  · rw [leftNone, rightNone]
    exact machines
  · have changedFrames := changed (congrArg List.head? leftFrames)
      (congrArg List.head? rightFrames) frames
    rw [leftFrames, rightFrames]
    exact machines.withFrames (.cons changedFrames below)

/-- Only the stack of the innermost activation changes. -/
theorem agrees_modifyStack {change : List Value → List Value} (machines : link.Machines left right)
    (changed : ∀ {stack : List Value}, (∀ value ∈ stack, link.Knows value) →
      ∀ value ∈ change stack, link.Knows value) :
    Agrees link left right (modifyFrame fun frame => { frame with stack := change frame.stack })
      (modifyFrame fun frame => { frame with stack := change frame.stack }) anyAnswer := by
  refine agrees_modifyFrame machines fun _ _ frames => ?_
  obtain ⟨id, home, code, ip, context, loop, rfl⟩ := frames.shape
  exact { frames with same := rfl, stack := changed frames.stack }

/-! ## The stack of operands -/

theorem agrees_push {value : Value} (machines : link.Machines left right)
    (known : link.Knows value) : Agrees link left right (push value) (push value) anyAnswer := by
  refine agrees_get_bind ?_
  rw [machines.maxStackDepth]
  refine agrees_frame_bind machines fun frames => ?_
  obtain ⟨id, home, code, ip, context, loop, rfl⟩ := frames.shape
  dsimp only
  split
  · exact agrees_throw_bind machines (by nofun)
  · exact agrees_modifyStack machines fun stack => List.forall_mem_cons.mpr ⟨known, stack⟩

theorem agrees_pushTracked {value : Value} (machines : link.Machines left right)
    (known : link.Knows value) :
    Agrees link left right (pushTracked value) (pushTracked value) anyAnswer := by
  have tracked := machines.withStores (Link.Grows.refl link) (machines.stores.track value)
  exact agrees_modify_bind (Link.Within.refl link) (agrees_push tracked known)

/-- The answers are the same known value. -/
def knownAnswer (link : Link) (a b : Value) : Prop := a = b ∧ link.Knows a

theorem agrees_pop (machines : link.Machines left right) :
    Agrees link left right pop pop knownAnswer := by
  refine agrees_frame_bind machines fun {leftFrame _} frames => ?_
  obtain ⟨id, home, code, ip, context, loop, rfl⟩ := frames.shape
  have knownStack := frames.stack
  dsimp only
  generalize leftFrame.stack = stack at knownStack ⊢
  cases stack with
  | nil =>
      exact agrees_throw machines (by decide)
  | cons value rest =>
      obtain ⟨known, knownRest⟩ := List.forall_mem_cons.mp knownStack
      refine (agrees_modifyStack machines fun _ => knownRest).bind ?_
      intro later leftReached rightReached _ _ within laterMachines _
      exact agrees_pure laterMachines ⟨rfl, within.knows known⟩

theorem agrees_peek (machines : link.Machines left right) :
    Agrees link left right peek peek knownAnswer := by
  refine agrees_frame_bind machines fun {leftFrame _} frames => ?_
  obtain ⟨id, home, code, ip, context, loop, rfl⟩ := frames.shape
  have knownStack := frames.stack
  dsimp only
  generalize leftFrame.stack = stack at knownStack ⊢
  cases stack with
  | nil =>
      exact agrees_throw machines (by decide)
  | cons value rest =>
      exact agrees_pure machines ⟨rfl, knownStack value List.mem_cons_self⟩

/-- The answers are the same known values. -/
def knownAnswers (link : Link) (a b : List Value) : Prop := a = b ∧ ∀ value ∈ a, link.Knows value

theorem agrees_popMany (count : Nat) (machines : link.Machines left right) :
    Agrees link left right (popMany count) (popMany count) knownAnswers := by
  refine agrees_frame_bind machines fun {leftFrame _} frames => ?_
  obtain ⟨id, home, code, ip, context, loop, rfl⟩ := frames.shape
  dsimp only
  split
  · exact agrees_throw_bind machines (by decide)
  · refine (agrees_modifyStack machines fun stack value member =>
      stack value (List.mem_of_mem_drop member)).bind ?_
    intro later leftReached rightReached _ _ within laterMachines _
    refine agrees_pure laterMachines ⟨rfl, fun value member => within.knows ?_⟩
    exact frames.stack value (List.mem_of_mem_take (List.mem_reverse.mp member))

/-! ## Operands of instructions -/

/-- Two instructions that say the same to two activations.  They are one instruction of the same
code, or they stand for one operation. -/
inductive Concurs (link : Link) (left right : Frame) : Instruction → Instruction → Prop
  | same {instruction : Instruction} :
      (instruction.opcode = .nonLocalReturn → link.pairing.numbers left.home right.home) →
      link.pairing.Together left.standing right.standing →
      Concurs link left right instruction instruction
  | denoted {op : Op} {leftInstruction rightInstruction : Instruction} : op.Proper →
      op.Denotes left.code.constants leftInstruction →
      op.Denotes right.code.constants rightInstruction →
      (∀ body, .block body ∈ op.constants → link.pairing.Homes body left.home right.home) →
      Concurs link left right leftInstruction rightInstruction

variable {leftInstruction rightInstruction : Instruction}

theorem Concurs.opcode {leftFrame rightFrame : Frame}
    (concurs : Concurs link leftFrame rightFrame leftInstruction rightInstruction) :
    leftInstruction.opcode = rightInstruction.opcode := by
  cases concurs with
  | same _ _ =>
      rfl
  | denoted _ leftDenotes rightDenotes _ =>
      exact leftDenotes.opcode.symm.trans rightDenotes.opcode

/-- Where an operand does not refer to a constant, it is the same. -/
theorem Concurs.operand {leftFrame rightFrame : Frame}
    (concurs : Concurs link leftFrame rightFrame leftInstruction rightInstruction)
    (plain : leftInstruction.opcode.operandKind.isPlain = true) :
    leftInstruction = rightInstruction := by
  cases concurs with
  | same _ _ =>
      rfl
  | denoted proper leftDenotes rightDenotes _ =>
      cases proper with
      | bare _ =>
          cases leftDenotes
          cases rightDenotes
          rfl
      | literal _ | block _ | classDescriptor =>
          cases leftDenotes
          cases plain
      | name kind | message kind _ =>
          cases leftDenotes
          simp [Op.placed, Instruction.indexed, Instruction.packed, kind, OperandKind.isPlain]
            at plain

/-- An instruction that names its successor is one of code that both run. -/
theorem Concurs.target {leftFrame rightFrame : Frame}
    (concurs : Concurs link leftFrame rightFrame leftInstruction rightInstruction)
    (isTarget : leftInstruction.opcode.operandKind = .target) :
    leftInstruction = rightInstruction ∧
      link.pairing.Together leftFrame.standing rightFrame.standing := by
  cases concurs with
  | same _ together =>
      exact ⟨rfl, together⟩
  | denoted proper leftDenotes _ _ =>
      cases proper with
      | bare plain _ =>
          cases leftDenotes
          simp [isTarget, OperandKind.isPlain] at plain
      | literal _ | block _ | classDescriptor =>
          cases leftDenotes
          cases isTarget
      | name kind | message kind _ =>
          cases leftDenotes
          simp [Op.placed, Instruction.indexed, Instruction.packed, kind] at isTarget

/-- Where an activation returns from its home, the homes stand for each other. -/
theorem Concurs.home {leftFrame rightFrame : Frame}
    (concurs : Concurs link leftFrame rightFrame leftInstruction rightInstruction)
    (isReturn : leftInstruction.opcode = .nonLocalReturn) :
    link.pairing.numbers leftFrame.home rightFrame.home := by
  cases concurs with
  | same returns _ =>
      exact returns isReturn
  | denoted proper leftDenotes _ _ =>
      cases proper with
      | bare _ notReturn =>
          cases leftDenotes
          exact (notReturn isReturn).elim
      | literal _ | block _ | classDescriptor =>
          cases leftDenotes
          cases isReturn
      | @name opcode _ kind | @message opcode _ _ kind _ =>
          cases leftDenotes
          have isReturn : opcode = .nonLocalReturn := isReturn
          rw [isReturn] at kind
          cases kind

/-- The instructions say the same to the innermost activations. -/
inductive Concur (link : Link) (left right : Machine)
    (leftInstruction rightInstruction : Instruction) : Prop
  | intro {leftFrame rightFrame : Frame} : left.frames.head? = some leftFrame →
      right.frames.head? = some rightFrame →
      Concurs link leftFrame rightFrame leftInstruction rightInstruction →
      Concur link left right leftInstruction rightInstruction

section Concur

variable (concur : Concur link left right leftInstruction rightInstruction)
include concur

theorem Concur.innermost {leftFrame rightFrame : Frame}
    (leftTop : left.frames.head? = some leftFrame)
    (rightTop : right.frames.head? = some rightFrame) :
    Concurs link leftFrame rightFrame leftInstruction rightInstruction := by
  obtain ⟨isLeft, isRight, concurs⟩ := concur
  cases isLeft.symm.trans leftTop
  cases isRight.symm.trans rightTop
  exact concurs

theorem Concur.opcode : leftInstruction.opcode = rightInstruction.opcode := by
  obtain ⟨_, _, concurs⟩ := concur
  exact concurs.opcode

theorem Concur.operand (plain : leftInstruction.opcode.operandKind.isPlain = true) :
    leftInstruction.operand = rightInstruction.operand := by
  obtain ⟨_, _, concurs⟩ := concur
  exact congrArg Instruction.operand (concurs.operand plain)

theorem Concur.target (isTarget : leftInstruction.opcode.operandKind = .target) :
    leftInstruction.operand = rightInstruction.operand := by
  obtain ⟨_, _, concurs⟩ := concur
  exact congrArg Instruction.operand (concurs.target isTarget).1

end Concur

theorem agrees_constantAt?_bind {leftIndex rightIndex : Option Nat}
    {f g : Option Constant → Exec α} {answers : Link → α → α → Prop}
    (machines : link.Machines left right)
    (next : ∀ {leftFrame rightFrame}, left.frames.head? = some leftFrame →
      right.frames.head? = some rightFrame → link.Frames leftFrame rightFrame →
      Agrees link left right (f (leftIndex.bind (leftFrame.code.constants[·]?)))
        (g (rightIndex.bind (rightFrame.code.constants[·]?))) answers) :
    Agrees link left right (constantAt? leftIndex >>= f) (constantAt? rightIndex >>= g)
      answers := by
  unfold constantAt?
  rw [bind_assoc, bind_assoc]
  exact agrees_innermost_bind machines next

theorem selected_indexed {constants : List Constant} {constant : Constant} {index : Nat}
    (opcode : Opcode) (small : index ≤ Instruction.maxPackedIndex)
    (found : constants[index]? = some constant) :
    (operandIndex? (Instruction.indexed opcode index).operand).bind (constants[·]?) =
      some constant := by
  have fits : index < 0x80000000 := Nat.lt_of_le_of_lt small (by decide)
  rw [Instruction.indexed, operandIndex?_ofNat fits]
  exact found

theorem agrees_nameOperand (isName : leftInstruction.opcode.operandKind = .name)
    (machines : link.Machines left right)
    (concur : Concur link left right leftInstruction rightInstruction) :
    Agrees link left right (nameOperand leftInstruction) (nameOperand rightInstruction)
      sameAnswer := by
  refine agrees_constantAt?_bind machines fun leftTop rightTop _ => ?_
  cases concur.innermost leftTop rightTop with
  | same _ together =>
      rw [together.sameCode]
      split
      · exact agrees_pure machines rfl
      · exact agrees_throw machines (by nofun)
  | denoted proper leftDenotes rightDenotes _ =>
      cases proper with
      | name _ =>
          cases leftDenotes with | pooled leftSmall leftFound =>
          cases rightDenotes with | pooled rightSmall rightFound =>
          rw [Op.placed, Op.placed, selected_indexed _ leftSmall leftFound,
            selected_indexed _ rightSmall rightFound]
          exact agrees_pure machines rfl
      | bare plain _ =>
          cases leftDenotes
          simp [isName, OperandKind.isPlain] at plain
      | literal _ | block _ | classDescriptor =>
          cases leftDenotes
          cases isName
      | message kind _ =>
          cases leftDenotes
          simp [Op.placed, Instruction.packed, kind] at isName

/-! ## Variables -/

theorem agrees_loadSlot {leftContext rightContext : ContextId} (slot : Nat)
    (machines : link.Machines left right) (linked : link.contexts leftContext rightContext) :
    Agrees link left right (loadSlot leftContext slot) (loadSlot rightContext slot) anyAnswer := by
  obtain ⟨value, leftLoaded, rightLoaded, known⟩ := machines.arenas.load? linked slot
  apply agrees_get_bind
  rw [leftLoaded, rightLoaded]
  exact agrees_push machines known

theorem agrees_storeSlot {leftContext rightContext : ContextId} {value : Value} (slot : Nat)
    (machines : link.Machines left right) (linked : link.contexts leftContext rightContext)
    (known : link.Knows value) :
    Agrees link left right (storeSlot leftContext slot value) (storeSlot rightContext slot value)
      anyAnswer := by
  obtain ⟨leftLive, rightLive⟩ := machines.arenas.isLive linked
  apply agrees_get_bind
  rw [leftLive, rightLive]
  exact agrees_modify (Link.Within.refl link) (machines.remember (Link.Within.refl link)
    machines.stores (machines.arenas.put linked slot known))

theorem agrees_outerSlot (instruction : Instruction) (machines : link.Machines left right) :
    Agrees link left right (outerSlot instruction) (outerSlot instruction)
      fun later a b => later.contexts a.1 b.1 ∧ a.2 = b.2 := by
  unfold outerSlot
  dsimp only
  refine agrees_get_bind (agrees_frame_bind machines fun frames => ?_)
  obtain ⟨leftTarget, rightTarget, leftResolved, rightResolved, outers⟩ :=
    machines.arenas.resolve? (Instruction.unpack instruction.operand).2 frames.context
  rw [leftResolved, rightResolved]
  cases outers with
  | none =>
      exact agrees_throw machines (by nofun)
  | some linked =>
      exact agrees_pure machines ⟨linked, rfl⟩

/-- The answers are the receiver with its class and its fields. -/
def recordAnswer (link : Link) (a b : ObjectId × ObjectId × List Value) : Prop :=
  a = b ∧ link.Has a.1 ∧ link.Has a.2.1 ∧ ∀ value ∈ a.2.2, link.Knows value

theorem agrees_receiverRecord (machines : link.Machines left right) :
    Agrees link left right receiverRecord receiverRecord recordAnswer := by
  refine agrees_frame_bind machines fun {leftFrame _} frames => agrees_get_bind ?_
  obtain ⟨id, home, code, ip, context, loop, rfl⟩ := frames.shape
  dsimp only
  have sights := machines.stores.see frames.receiver
  rw [machines.stores.className frames.receiver]
  generalize left.store.see leftFrame.receiver = leftSeen,
    right.store.see leftFrame.receiver = rightSeen at sights ⊢
  cases sights with
  | record linked hasClass fields =>
      exact agrees_pure machines ⟨rfl, ⟨_, _, linked⟩, hasClass, fields⟩
  | _ =>
      exact agrees_throw machines (by nofun)

theorem agrees_fieldFault {classId : ObjectId} (index : Nat) (machines : link.Machines left right)
    (hasClass : link.Has classId) :
    Agrees link left right (do throw (← fieldFault classId index))
      (do throw (← fieldFault classId index)) answers := by
  simp only [fieldFault, bind_assoc, pure_bind]
  apply agrees_get_bind
  rw [machines.stores.nameOf hasClass, machines.stores.fieldCount hasClass]
  exact agrees_throw machines (by nofun)

theorem agrees_loadField (index : Nat) (machines : link.Machines left right) :
    Agrees link left right (loadField index) (loadField index) anyAnswer := by
  apply (agrees_receiverRecord machines).bind
  rintro later leftReached rightReached ⟨id, classId, fields⟩ _ _ laterMachines
    ⟨rfl, _, hasClass, known⟩
  dsimp only
  split
  · rename_i value atIndex
    exact agrees_push laterMachines (known value (List.mem_of_getElem? atIndex))
  · exact agrees_fieldFault index laterMachines hasClass

theorem agrees_storeField (index : Nat) (machines : link.Machines left right) :
    Agrees link left right (storeField index) (storeField index) anyAnswer := by
  apply (agrees_receiverRecord machines).bind
  rintro later leftReached rightReached ⟨id, classId, fields⟩ _ _ laterMachines
    ⟨rfl, has, hasClass, _⟩
  apply (agrees_peek laterMachines).bind
  rintro last leftLast rightLast value _ within lastMachines ⟨rfl, known⟩
  split
  · exact agrees_modify (Link.Within.refl last) (lastMachines.withStores (Link.Grows.refl last)
      (lastMachines.stores.setField (within.has has) index known))
  · exact agrees_fieldFault index lastMachines (within.has hasClass)

theorem agrees_owner (opcode : Opcode) (machines : link.Machines left right) :
    Agrees link left right (owner opcode) (owner opcode)
      fun later a b => a = b ∧ later.Has a := by
  refine agrees_frame_bind machines fun {leftFrame _} frames => ?_
  obtain ⟨id, home, code, ip, context, loop, rfl⟩ := frames.shape
  have hasOwner := frames.owner
  dsimp only
  generalize leftFrame.owner = ownerId at hasOwner ⊢
  cases ownerId with
  | none =>
      exact agrees_throw machines (by nofun)
  | some id =>
      exact agrees_pure machines ⟨rfl, hasOwner id rfl⟩

theorem agrees_loadClassVar (isName : leftInstruction.opcode.operandKind = .name)
    (machines : link.Machines left right)
    (concur : Concur link left right leftInstruction rightInstruction) :
    Agrees link left right (loadClassVar leftInstruction) (loadClassVar rightInstruction)
      anyAnswer := by
  apply (agrees_nameOperand isName machines concur).bind
  rintro later leftReached rightReached name _ _ laterMachines rfl
  rw [← concur.opcode]
  apply (agrees_owner _ laterMachines).bind
  rintro last leftLast rightLast id _ _ lastMachines ⟨rfl, has⟩
  apply agrees_get_bind
  rw [← lastMachines.stores.classVar? has]
  split
  · rename_i value found
    exact agrees_push lastMachines (lastMachines.stores.knows_of_classVar? has found)
  · exact agrees_throw lastMachines (by nofun)

theorem agrees_storeClassVar (isName : leftInstruction.opcode.operandKind = .name)
    (machines : link.Machines left right)
    (concur : Concur link left right leftInstruction rightInstruction) :
    Agrees link left right (storeClassVar leftInstruction) (storeClassVar rightInstruction)
      anyAnswer := by
  apply (agrees_nameOperand isName machines concur).bind
  rintro later leftReached rightReached name _ _ laterMachines rfl
  rw [← concur.opcode]
  apply (agrees_owner _ laterMachines).bind
  rintro third leftThird rightThird id _ _ thirdMachines ⟨rfl, has⟩
  apply (agrees_peek thirdMachines).bind
  rintro last leftLast rightLast value _ within lastMachines ⟨rfl, known⟩
  have hasStill := within.has has
  apply agrees_get_bind
  rw [← lastMachines.stores.classVarOwner? hasStill]
  split
  · rename_i holder definition found
    have hasHolder := lastMachines.stores.has_of_classVarOwner? hasStill found
    have isClass := Store.class?_of_classVarOwner? found
    exact agrees_modify (Link.Within.refl last) (lastMachines.withStores (Link.Grows.refl last)
      (lastMachines.stores.setOwnClassVar hasHolder isClass name known))
  · exact agrees_throw lastMachines (by nofun)

theorem knows_global {name : String} {value : Value} (machines : link.Machines left right)
    (found : left.globals.get? name = some value) : link.Knows value :=
  machines.globalValues value (List.mem_map.mpr ⟨(name, value), Link.mem_of_lookup found, rfl⟩)

theorem agrees_loadGlobal (isName : leftInstruction.opcode.operandKind = .name)
    (machines : link.Machines left right)
    (concur : Concur link left right leftInstruction rightInstruction) :
    Agrees link left right (loadGlobal leftInstruction) (loadGlobal rightInstruction)
      anyAnswer := by
  apply (agrees_nameOperand isName machines concur).bind
  rintro later leftReached rightReached name _ _ laterMachines rfl
  apply agrees_get_bind
  rw [← laterMachines.globals]
  split
  · rename_i value found
    exact agrees_push laterMachines (knows_global laterMachines found)
  · exact agrees_throw laterMachines (by nofun)

theorem knows_insertEntry {entries : List (String × Value)} {name : String} {value : Value}
    (known : ∀ entry ∈ entries, link.Knows entry.2) (knownValue : link.Knows value) :
    ∀ entry ∈ Globals.insertEntry name value entries, link.Knows entry.2 := by
  induction entries with
  | nil =>
      intro entry member
      rw [List.mem_singleton.mp member]
      exact knownValue
  | cons head rest inductionHypothesis =>
      obtain ⟨knownHead, knownRest⟩ := List.forall_mem_cons.mp known
      rw [Globals.insertEntry]
      split
      · exact List.forall_mem_cons.mpr ⟨knownValue, knownRest⟩
      · split
        · exact List.forall_mem_cons.mpr ⟨knownValue, known⟩
        · exact List.forall_mem_cons.mpr ⟨knownHead, inductionHypothesis knownRest⟩

/-- The linked machines with another value of a global variable. -/
theorem machines_setGlobal {value : Value} (machines : link.Machines left right) (name : String)
    (known : link.Knows value) :
    link.Machines { left with globals := left.globals.set name value }
      { right with globals := right.globals.set name value } := by
  refine { machines with
    globals := congrArg (·.set name value) machines.globals
    globalValues := ?_ }
  refine List.forall_mem_map.mpr (knows_insertEntry ?_ known)
  exact List.forall_mem_map.mp machines.globalValues

theorem agrees_storeGlobal (isName : leftInstruction.opcode.operandKind = .name)
    (machines : link.Machines left right)
    (concur : Concur link left right leftInstruction rightInstruction) :
    Agrees link left right (storeGlobal leftInstruction) (storeGlobal rightInstruction)
      anyAnswer := by
  apply (agrees_nameOperand isName machines concur).bind
  rintro later leftReached rightReached name _ _ laterMachines rfl
  apply (agrees_peek laterMachines).bind
  rintro last leftLast rightLast value _ _ lastMachines ⟨rfl, known⟩
  exact agrees_modify (Link.Within.refl last) (machines_setGlobal lastMachines name known)

/-! ## Activations -/

theorem agrees_enter {build otherBuild : FrameId → Frame} (machines : link.Machines left right)
    (frames : ∀ {leftId rightId}, link.pairing.numbers leftId rightId →
      link.Frames (build leftId) (otherBuild rightId)) :
    Agrees link left right (enter build) (enter otherBuild) anyAnswer := by
  apply agrees_modify (Link.Within.refl link)
  refine { machines with
    frames := .cons (frames (machines.numbers 0)) machines.frames
    numbers := fun count => ?_ }
  have later := machines.numbers (1 + count)
  rw [← Nat.add_assoc, ← Nat.add_assoc] at later
  exact later

theorem agrees_checkDepth (machines : link.Machines left right) :
    Agrees link left right checkDepth checkDepth anyAnswer := by
  apply agrees_get_bind
  rw [machines.maxFrames, machines.frames.length_eq]
  split
  · exact agrees_throw machines (by nofun)
  · exact agrees_pure machines trivial

theorem agrees_newContext {leftOuter rightOuter : Option ContextId} {locals : List Value}
    (machines : link.Machines left right) (outers : link.Outers leftOuter rightOuter)
    (known : ∀ value ∈ locals, link.Knows value) :
    Agrees link left right (newContext leftOuter locals) (newContext rightOuter locals)
      Link.contexts := by
  have contexts : link.Contexts ⟨locals.toArray, leftOuter⟩ ⟨locals.toArray, rightOuter⟩ :=
    ⟨rfl, fun value member => known value (List.mem_toArray.mp member), outers⟩
  have within := Link.within_join link (left.contexts.alloc ⟨locals.toArray, leftOuter⟩).1
    (right.contexts.alloc ⟨locals.toArray, rightOuter⟩).1
  exact .ok ⟨within, machines.remember within (machines.stores.join _ _)
    (machines.arenas.alloc contexts)⟩ (Or.inr ⟨rfl, rfl⟩)

theorem agrees_callMethod {receiver : Value} {ownerId : ObjectId} {arguments : List Value}
    (definition : ClassObject) (method : MethodDescriptor) (classSide : Bool)
    (machines : link.Machines left right) (knownReceiver : link.Knows receiver)
    (hasOwner : link.Has ownerId) (known : ∀ value ∈ arguments, link.Knows value) :
    Agrees link left right (callMethod receiver ownerId definition method classSide arguments)
      (callMethod receiver ownerId definition method classSide arguments) anyAnswer := by
  apply (agrees_checkDepth machines).bind
  intro later leftReached rightReached _ _ within laterMachines _
  apply (agrees_newContext laterMachines .none (within.allKnown known)).bind
  intro last leftLast rightLast leftContext rightContext withinLast lastMachines linked
  have withinAll := within.trans withinLast
  refine agrees_enter lastMachines fun paired => ⟨rfl, last.pairing.unique paired,
    .together ⟨rfl, rfl, Or.inl paired, nofun⟩, noneKnown, linked,
    withinAll.knows knownReceiver, ?_, .none⟩
  rintro _ ⟨⟩
  exact withinAll.has hasOwner

theorem agrees_callBlock {leftBlock rightBlock : BlockRef} {arguments : List Value}
    {leftLoop rightLoop : Option Iteration} (machines : link.Machines left right)
    (blocks : link.Blocks leftBlock rightBlock) (known : ∀ value ∈ arguments, link.Knows value)
    (pending : link.Pending leftLoop rightLoop) :
    Agrees link left right (callBlock leftBlock arguments leftLoop)
      (callBlock rightBlock arguments rightLoop) anyAnswer := by
  obtain ⟨_, _, closures⟩ := machines.stores.closures blocks
  obtain ⟨leftId, leftClosure⟩ := leftBlock
  obtain ⟨rightId, rightClosure⟩ := rightBlock
  obtain ⟨outer, home, rfl⟩ : ∃ outer home,
      rightClosure = { leftClosure with outer := outer, home := home } :=
    ⟨_, _, closures.same⟩
  unfold callBlock
  dsimp only
  split
  · exact agrees_throw_bind machines (by nofun)
  · apply (agrees_checkDepth machines).bind
    intro later leftReached rightReached _ _ within laterMachines _
    refine (agrees_newContext laterMachines (.some (within.contexts closures.outer))
      (within.allKnown known)).bind ?_
    intro last leftLast rightLast leftContext rightContext withinLast lastMachines linked
    have withinAll := within.trans withinLast
    have closuresLast := withinAll.closures closures
    exact agrees_enter lastMachines fun paired => ⟨rfl, last.pairing.unique paired,
      .together ⟨rfl, rfl, closuresLast.home, nofun⟩, noneKnown, linked, closuresLast.receiver,
      closuresLast.owner, withinAll.pending pending⟩

theorem agrees_write (text : String) (machines : link.Machines left right) :
    Agrees link left right (write text) (write text) anyAnswer := by
  apply agrees_get_bind
  dsimp only
  rw [machines.output]
  cases right.output.refusal with
  | some reason =>
      dsimp only
      split
      · exact agrees_throw machines (by nofun)
      · exact agrees_pure machines trivial
  | none =>
      apply agrees_modify (Link.Within.refl link)
      rw [machines.output]
      exact { machines with output := rfl }

theorem agrees_perform {leftAction rightAction : Action} (machines : link.Machines left right)
    (actions : link.Actions leftAction rightAction) :
    Agrees link left right (perform leftAction) (perform rightAction) anyAnswer := by
  cases actions with
  | answer known =>
      exact agrees_pushTracked machines known
  | call blocks known pending =>
      exact agrees_callBlock machines blocks known pending
  | write text known =>
      apply (agrees_write text machines).bind
      intro later leftReached rightReached _ _ within laterMachines _
      exact agrees_pushTracked laterMachines (within.knows known)

/-! ## Messages -/

/-- A built-in response is computed on the store and carried out. -/
theorem agrees_respond {leftEffect rightEffect : Effect Action}
    (machines : link.Machines left right)
    (effects : Effect.Agrees link left.store right.store leftEffect rightEffect Link.Actions) :
    Agrees link left right (do perform (← onStore leftEffect))
      (do perform (← onStore rightEffect)) anyAnswer := by
  apply (agrees_onStore machines effects).bind
  intro later leftReached rightReached leftAction rightAction _ laterMachines actions
  exact agrees_perform laterMachines actions

theorem agrees_checkArgumentCount (selector : Selector) (given : Nat)
    (machines : link.Machines left right) :
    Agrees link left right (checkArgumentCount selector given) (checkArgumentCount selector given)
      anyAnswer := by
  unfold checkArgumentCount
  split
  · exact agrees_throw machines (by nofun)
  · exact agrees_pure machines trivial

theorem inheritedMethod?_eq {leftStore rightStore : Store} {id : ObjectId} {classSide : Bool}
    {selector : Selector} (stores : link.Stores leftStore rightStore) (has : link.Has id) :
    inheritedMethod? leftStore id classSide selector =
      inheritedMethod? rightStore id classSide selector := by
  unfold inheritedMethod?
  rw [← stores.class? has]
  cases found : leftStore.class? id with
  | none =>
      rfl
  | some definition =>
      cases parent : definition.superclass with
      | none =>
          simp [parent]
      | some above =>
          simp [parent, stores.lookup _ _ ((stores.has_of_class? has found).2.1 above parent)]

theorem has_of_inheritedMethod? {leftStore rightStore : Store} {id ownerId : ObjectId}
    {classSide : Bool} {selector : Selector} {definition : ClassObject} {method : MethodDescriptor}
    (stores : link.Stores leftStore rightStore) (has : link.Has id)
    (found : inheritedMethod? leftStore id classSide selector =
      some (ownerId, definition, method)) :
    link.Has ownerId := by
  unfold inheritedMethod? at found
  obtain ⟨lower, isClass, inParent⟩ := Option.bind_eq_some_iff.mp found
  obtain ⟨above, isParent, isFound⟩ := Option.bind_eq_some_iff.mp inParent
  exact stores.has_of_lookup ((stores.has_of_class? has isClass).2.1 above isParent) isFound

section Messages

variable {receiver : Value} {arguments : List Value} (machines : link.Machines left right)
  (knownReceiver : link.Knows receiver) (known : ∀ value ∈ arguments, link.Knows value)
include machines knownReceiver known

theorem agrees_respondUniversally (selector : Selector) :
    Agrees link left right (respondUniversally receiver selector arguments)
      (respondUniversally receiver selector arguments) anyAnswer := by
  apply agrees_get_bind
  dsimp only
  rw [machines.stores.print knownReceiver, machines.stores.className knownReceiver]
  have responses := responses_universal machines.stores knownReceiver selector
  generalize left.store.universalResponse? receiver selector = leftResponse,
    right.store.universalResponse? receiver selector = rightResponse at responses ⊢
  cases responses with
  | none =>
      exact agrees_throw machines (by nofun)
  | some effects =>
      exact agrees_respond machines (effects known)

theorem agrees_send (selector : Selector) :
    Agrees link left right (send receiver selector arguments) (send receiver selector arguments)
      anyAnswer := by
  apply (agrees_checkArgumentCount selector _ machines).bind
  intro later leftReached rightReached _ _ within laterMachines _
  have knownReceiverLater := within.knows knownReceiver
  apply agrees_get_bind
  dsimp only
  have responses := responses_builtin laterMachines.stores knownReceiverLater selector
  generalize leftReached.store.builtinResponse? receiver selector = leftResponse,
    rightReached.store.builtinResponse? receiver selector = rightResponse at responses ⊢
  cases responses with
  | some effects =>
      exact agrees_respond laterMachines (effects (within.allKnown known))
  | none =>
      dsimp only
      rw [← method?_eq laterMachines.stores knownReceiverLater]
      split
      · rename_i ownerId definition method classSide found
        exact agrees_callMethod definition method classSide laterMachines knownReceiverLater
          (has_of_method? laterMachines.stores knownReceiverLater found) (within.allKnown known)
      · exact agrees_respondUniversally laterMachines knownReceiverLater (within.allKnown known) _

theorem agrees_superSend (selector : Selector) :
    Agrees link left right (superSend receiver selector arguments)
      (superSend receiver selector arguments) anyAnswer := by
  refine (agrees_checkArgumentCount selector _ machines).bind ?_
  intro later leftReached rightReached _ _ within laterMachines _
  refine agrees_frame_bind laterMachines fun frames => ?_
  obtain ⟨id, home, code, ip, context, loop, rfl⟩ := frames.shape
  dsimp only
  apply (agrees_owner .superSend laterMachines).bind
  rintro last leftLast rightLast id _ withinLast lastMachines ⟨rfl, has⟩
  have withinAll := within.trans withinLast
  have knownReceiverLast := withinAll.knows knownReceiver
  apply agrees_get_bind
  rw [← inheritedMethod?_eq lastMachines.stores has]
  split
  · rename_i ownerId definition method found
    exact agrees_callMethod definition method _ lastMachines knownReceiverLast
      (has_of_inheritedMethod? lastMachines.stores has found) (withinAll.allKnown known)
  · exact agrees_respondUniversally lastMachines knownReceiverLast (withinAll.allKnown known) _

end Messages

/-- The answers are the receiver, the selector and the arguments of a message. -/
def messageAnswer (link : Link) (a b : Value × Selector × List Value) : Prop :=
  a = b ∧ link.Knows a.1 ∧ ∀ value ∈ a.2.2, link.Knows value

/-- The arguments and the receiver are taken after the selector is known. -/
theorem agrees_takeOperands (selector : Selector) (count : Nat)
    (machines : link.Machines left right) :
    Agrees link left right
      (do
        let arguments ← popMany count
        let receiver ← pop
        return (receiver, selector, arguments))
      (do
        let arguments ← popMany count
        let receiver ← pop
        return (receiver, selector, arguments)) messageAnswer := by
  apply (agrees_popMany _ machines).bind
  rintro later leftReached rightReached arguments _ _ laterMachines ⟨rfl, known⟩
  apply (agrees_pop laterMachines).bind
  rintro last leftLast rightLast receiver _ within lastMachines ⟨rfl, knownReceiver⟩
  exact agrees_pure lastMachines ⟨rfl, knownReceiver, within.allKnown known⟩

/-- The message that is taken from a machine linked to itself is known. -/
theorem agrees_takeMessage_self {machine : Machine} (instruction : Instruction)
    (machines : link.Machines machine machine) :
    Agrees link machine machine (takeMessage instruction) (takeMessage instruction)
      messageAnswer := by
  unfold takeMessage
  dsimp only
  refine agrees_constantAt?_bind machines fun leftTop rightTop _ => ?_
  cases leftTop.symm.trans rightTop
  split
  · exact agrees_takeOperands _ _ machines
  · exact agrees_throw machines (by nofun)

theorem agrees_takeMessage (isMessage : leftInstruction.opcode.operandKind = .send)
    (machines : link.Machines left right)
    (concur : Concur link left right leftInstruction rightInstruction) :
    Agrees link left right (takeMessage leftInstruction) (takeMessage rightInstruction)
      messageAnswer := by
  unfold takeMessage
  dsimp only
  refine agrees_constantAt?_bind machines fun leftTop rightTop _ => ?_
  cases concur.innermost leftTop rightTop with
  | same _ together =>
      rw [together.sameCode]
      split
      · exact agrees_takeOperands _ _ machines
      · exact agrees_throw machines (by nofun)
  | denoted proper leftDenotes rightDenotes _ =>
      cases proper with
      | message _ few =>
          cases leftDenotes with | pooled leftSmall leftFound =>
          cases rightDenotes with | pooled rightSmall rightFound =>
          simp only [Op.placed, Instruction.packed, Instruction.unpack_packedOperand leftSmall few,
            Instruction.unpack_packedOperand rightSmall few, Option.bind_some, leftFound,
            rightFound]
          exact agrees_takeOperands _ _ machines
      | bare plain _ =>
          cases leftDenotes
          simp [isMessage, OperandKind.isPlain] at plain
      | literal _ | block _ | classDescriptor =>
          cases leftDenotes
          cases isMessage
      | name kind =>
          cases leftDenotes
          simp [Op.placed, Instruction.indexed, kind] at isMessage

/-! ## Objects -/

theorem agrees_pushConstant (isConstant : leftInstruction.opcode.operandKind = .constant)
    (machines : link.Machines left right)
    (concur : Concur link left right leftInstruction rightInstruction) :
    Agrees link left right (pushConstant leftInstruction) (pushConstant rightInstruction)
      anyAnswer := by
  refine agrees_constantAt?_bind machines fun leftTop rightTop _ => ?_
  cases concur.innermost leftTop rightTop with
  | same _ together =>
      rw [together.sameCode]
      split
      · exact agrees_push machines (Link.knows_int _)
      · exact agrees_push machines (Link.knows_float _)
      · exact agrees_push machines (Link.knows_string _)
      · exact agrees_push machines (Link.knows_bool _)
      · exact agrees_push machines Link.knows_nil
      · exact agrees_throw machines (by nofun)
      · exact agrees_throw machines (by nofun)
      · exact agrees_throw machines (by nofun)
  | denoted proper leftDenotes rightDenotes _ =>
      cases proper with
      | @literal constant isScalar =>
          cases leftDenotes with | pooled leftSmall leftFound =>
          cases rightDenotes with | pooled rightSmall rightFound =>
          rw [Op.placed, Op.placed, selected_indexed _ leftSmall leftFound,
            selected_indexed _ rightSmall rightFound]
          cases constant with
          | int value => exact agrees_push machines (Link.knows_int value)
          | float value => exact agrees_push machines (Link.knows_float value)
          | string text => exact agrees_push machines (Link.knows_string text)
          | bool value => exact agrees_push machines (Link.knows_bool value)
          | nil => exact agrees_push machines Link.knows_nil
          | block _ | classDescriptor _ => cases isScalar
      | bare plain _ =>
          cases leftDenotes
          simp [isConstant, OperandKind.isPlain] at plain
      | block _ | classDescriptor =>
          cases leftDenotes
          cases isConstant
      | name kind | message kind _ =>
          cases leftDenotes
          simp [Op.placed, Instruction.indexed, Instruction.packed, kind] at isConstant

/-- A new object is stored and pushed. -/
theorem agrees_pushNew {leftStore rightStore : Store} {leftId rightId : ObjectId}
    (machines : link.Machines left right) (sameId : leftId = rightId)
    (stored : ∃ later, Link.Grows link later ∧ later.Has leftId ∧
      later.Stores leftStore rightStore) :
    Agrees link left right
      (do
        modify fun machine => { machine with store := leftStore }
        pushTracked (.ref leftId))
      (do
        modify fun machine => { machine with store := rightStore }
        pushTracked (.ref rightId)) anyAnswer := by
  obtain ⟨later, grows, has, stores⟩ := stored
  subst sameId
  apply agrees_modify_bind grows.within
  exact agrees_pushTracked (machines.withStores grows stores) (Link.knows_ref.mpr has)

theorem agrees_newInstance (machines : link.Machines left right) :
    Agrees link left right newInstance newInstance anyAnswer := by
  apply (agrees_pop machines).bind
  rintro later leftReached rightReached value _ _ laterMachines ⟨rfl, known⟩
  apply agrees_get_bind
  dsimp only
  rw [laterMachines.stores.className known]
  have sights := laterMachines.stores.see known
  generalize leftReached.store.see value = leftSeen,
    rightReached.store.see value = rightSeen at sights ⊢
  cases sights with
  | classObject linked _ _ =>
      obtain ⟨sameId, stored⟩ := laterMachines.stores.newRecord ⟨_, _, linked⟩
      exact agrees_pushNew laterMachines sameId stored
  | _ =>
      exact agrees_throw laterMachines (by nofun)

/-- A name is bound to the same class on both sides. -/
theorem class?_eq (name : String) (machines : link.Machines left right) :
    left.globals.class? left.store name = right.globals.class? right.store name ∧
      ∀ id ∈ left.globals.class? left.store name, link.Has id := by
  unfold Globals.class?
  rw [← machines.globals]
  cases found : left.globals.get? name with
  | none =>
      exact ⟨rfl, fun _ impossible => (Option.not_mem_none _ impossible).elim⟩
  | some value =>
      have sights := machines.stores.see (knows_global machines found)
      dsimp only [Option.map_some]
      generalize left.store.see value = leftSeen, right.store.see value = rightSeen at sights ⊢
      cases sights with
      | classObject linked _ _ =>
          exact ⟨rfl, fun _ member => Option.some.inj member ▸ ⟨_, _, linked⟩⟩
      | _ =>
          exact ⟨rfl, fun _ impossible => (Option.not_mem_none _ impossible).elim⟩

theorem agrees_superclassOf (descriptor : ClassDescriptor) (machines : link.Machines left right) :
    Agrees link left right (superclassOf descriptor) (superclassOf descriptor)
      fun later a b => a = b ∧ ∀ id ∈ a, later.Has id := by
  unfold superclassOf
  split
  · exact agrees_pure machines
      ⟨rfl, fun _ impossible => (Option.not_mem_none _ impossible).elim⟩
  · rename_i name _
    obtain ⟨same, has⟩ := class?_eq name machines
    apply agrees_get_bind
    rw [← same]
    split
    · rename_i id found
      exact agrees_pure machines ⟨rfl, found ▸ has⟩
    · exact agrees_throw machines (by nofun)

/-- The class that a descriptor describes is created, bound to its name and pushed. -/
theorem agrees_makeClass (descriptor : ClassDescriptor) (machines : link.Machines left right) :
    Agrees link left right
      (do
        let superclass ← superclassOf descriptor
        let (id, store) := (← get).store.newClass descriptor superclass
        modify fun machine =>
          { machine with store, globals := machine.globals.set descriptor.name (.ref id) }
        pushTracked (.ref id))
      (do
        let superclass ← superclassOf descriptor
        let (id, store) := (← get).store.newClass descriptor superclass
        modify fun machine =>
          { machine with store, globals := machine.globals.set descriptor.name (.ref id) }
        pushTracked (.ref id)) anyAnswer := by
  apply (agrees_superclassOf descriptor machines).bind
  rintro later leftReached rightReached superclass _ _ laterMachines ⟨rfl, parent⟩
  have created := laterMachines.stores.newClass descriptor parent
  apply agrees_get_bind
  generalize leftReached.store.newClass descriptor superclass = leftNew,
    rightReached.store.newClass descriptor superclass = rightNew at created ⊢
  obtain ⟨sameId, last, grows, has, stores⟩ := created
  obtain ⟨leftId, leftStore⟩ := leftNew
  obtain ⟨rightId, rightStore⟩ := rightNew
  cases sameId
  have known := Link.knows_ref.mpr has
  exact agrees_modify_bind grows.within (agrees_pushTracked
    (machines_setGlobal (laterMachines.withStores grows stores) descriptor.name known) known)

theorem agrees_defineClass (isClass : leftInstruction.opcode.operandKind = .classDescriptor)
    (machines : link.Machines left right)
    (concur : Concur link left right leftInstruction rightInstruction) :
    Agrees link left right (defineClass leftInstruction) (defineClass rightInstruction)
      anyAnswer := by
  refine agrees_constantAt?_bind machines fun leftTop rightTop _ => ?_
  cases concur.innermost leftTop rightTop with
  | same _ together =>
      rw [together.sameCode]
      split
      · exact agrees_makeClass _ machines
      · exact agrees_throw machines (by nofun)
      · exact agrees_throw machines (by nofun)
  | denoted proper leftDenotes rightDenotes _ =>
      cases proper with
      | classDescriptor =>
          cases leftDenotes with | pooled leftSmall leftFound =>
          cases rightDenotes with | pooled rightSmall rightFound =>
          rw [Op.placed, Op.placed, selected_indexed _ leftSmall leftFound,
            selected_indexed _ rightSmall rightFound]
          exact agrees_makeClass _ machines
      | bare plain _ =>
          cases leftDenotes
          simp [isClass, OperandKind.isPlain] at plain
      | literal _ | block _ =>
          cases leftDenotes
          cases isClass
      | name kind | message kind _ =>
          cases leftDenotes
          simp [Op.placed, Instruction.indexed, Instruction.packed, kind] at isClass

/-- A block is created in the innermost activation and pushed. -/
theorem agrees_pushBlock {body : CodeUnit} (count : Nat) {leftFrame rightFrame : Frame}
    (machines : link.Machines left right) (frames : link.Frames leftFrame rightFrame)
    (homes : link.pairing.Homes body leftFrame.home rightFrame.home) :
    Agrees link left right
      (do
        let closure : Closure :=
          { body, parameterCount := count, outer := leftFrame.context
            receiver := leftFrame.receiver, owner := leftFrame.owner
            classSide := leftFrame.classSide, home := leftFrame.home, origin := origin leftFrame }
        let (id, store) := (← get).store.alloc (.block closure)
        modify fun machine => { machine with store }
        pushTracked (.ref id))
      (do
        let closure : Closure :=
          { body, parameterCount := count, outer := rightFrame.context
            receiver := rightFrame.receiver, owner := rightFrame.owner
            classSide := rightFrame.classSide, home := rightFrame.home
            origin := origin rightFrame }
        let (id, store) := (← get).store.alloc (.block closure)
        modify fun machine => { machine with store }
        pushTracked (.ref id)) anyAnswer := by
  obtain ⟨id, home, code, ip, context, loop, rfl⟩ := frames.shape
  have closures : link.Closures
      ⟨body, count, leftFrame.context, leftFrame.receiver, leftFrame.owner, leftFrame.classSide,
        leftFrame.home, origin leftFrame⟩
      ⟨body, count, context, leftFrame.receiver, leftFrame.owner, leftFrame.classSide, home,
        origin leftFrame⟩ :=
    ⟨rfl, homes, frames.context, frames.receiver, frames.owner⟩
  apply agrees_get_bind
  obtain ⟨sameId, stored⟩ := machines.stores.alloc (.block closures)
  exact agrees_pushNew machines sameId stored

theorem agrees_makeClosure (isClosure : leftInstruction.opcode.operandKind = .closure)
    (machines : link.Machines left right)
    (concur : Concur link left right leftInstruction rightInstruction) :
    Agrees link left right (makeClosure leftInstruction) (makeClosure rightInstruction)
      anyAnswer := by
  unfold makeClosure
  dsimp only
  refine agrees_constantAt?_bind machines fun {leftFrame rightFrame} leftTop rightTop _ => ?_
  cases concur.innermost leftTop rightTop with
  | same _ together =>
      rw [together.sameCode]
      split
      · rename_i body found
        have isBlock : .block body ∈ leftFrame.code.constants := List.mem_of_getElem? found
        refine agrees_innermost_bind machines fun leftAgain rightAgain frames => ?_
        cases leftTop.symm.trans leftAgain
        cases rightTop.symm.trans rightAgain
        exact agrees_pushBlock _ machines frames (together.homes.block isBlock)
      · exact agrees_throw machines (by nofun)
  | denoted proper leftDenotes rightDenotes homes =>
      cases proper with
      | block few =>
          cases leftDenotes with | pooled leftSmall leftFound =>
          cases rightDenotes with | pooled rightSmall rightFound =>
          simp only [Op.placed, Instruction.packed, Instruction.unpack_packedOperand leftSmall few,
            Instruction.unpack_packedOperand rightSmall few, Option.bind_some, leftFound,
            rightFound]
          refine agrees_innermost_bind machines fun leftAgain rightAgain frames => ?_
          cases leftTop.symm.trans leftAgain
          cases rightTop.symm.trans rightAgain
          exact agrees_pushBlock _ machines frames (homes _ List.mem_cons_self)
      | bare plain _ =>
          cases leftDenotes
          simp [isClosure, OperandKind.isPlain] at plain
      | literal _ | classDescriptor =>
          cases leftDenotes
          cases isClosure
      | name kind | message kind _ =>
          cases leftDenotes
          simp [Op.placed, Instruction.indexed, Instruction.packed, kind] at isClosure

theorem agrees_makeArray (count : Nat) (machines : link.Machines left right) :
    Agrees link left right (makeArray count) (makeArray count) anyAnswer := by
  apply (agrees_popMany count machines).bind
  rintro later leftReached rightReached items _ _ laterMachines ⟨rfl, known⟩
  obtain ⟨sameId, stored⟩ := laterMachines.stores.alloc (Link.linkedArray known)
  exact agrees_pushNew laterMachines sameId stored

theorem knows_pairs {values : List Value} (known : ∀ value ∈ values, link.Knows value) :
    ∀ pair ∈ pairs values, link.Knows pair.1 ∧ link.Knows pair.2 := by
  fun_induction pairs values with
  | case1 key value rest inductionHypothesis =>
      obtain ⟨knownKey, knownRest⟩ := List.forall_mem_cons.mp known
      obtain ⟨knownValue, knownTail⟩ := List.forall_mem_cons.mp knownRest
      exact List.forall_mem_cons.mpr ⟨⟨knownKey, knownValue⟩, inductionHypothesis knownTail⟩
  | case2 =>
      exact fun _ impossible => (List.not_mem_nil impossible).elim

theorem agrees_makeDictionary (count : Nat) (machines : link.Machines left right) :
    Agrees link left right (makeDictionary count) (makeDictionary count) anyAnswer := by
  apply (agrees_popMany _ machines).bind
  rintro later leftReached rightReached items _ _ laterMachines ⟨rfl, known⟩
  obtain ⟨same, knownEntries⟩ := laterMachines.stores.entriesOfPairs (knows_pairs known)
  refine agrees_settle_bind laterMachines same fun entries isMade => ?_
  obtain ⟨sameId, stored⟩ := laterMachines.stores.alloc
    (Link.linkedDictionary (knownEntries entries isMade))
  exact agrees_pushNew laterMachines sameId stored

/-! ## Returns and jumps -/

/-- The answers say that both go on, or that both have finished with the same known value. -/
def stateAnswer (link : Link) (a b : StepState) : Prop :=
  a = b ∧ ∀ value, a = .finished value → link.Knows value

theorem agrees_running (machines : link.Machines left right) :
    Agrees link left right (pure .running) (pure .running) stateAnswer :=
  agrees_pure machines ⟨rfl, nofun⟩

theorem agrees_andGoOn {x y : Exec Unit} (agrees : Agrees link left right x y anyAnswer) :
    Agrees link left right (andGoOn x) (andGoOn y) stateAnswer :=
  agrees.bind fun _ laterMachines _ => agrees_running laterMachines

theorem agrees_complete {value : Value} (machines : link.Machines left right)
    (known : link.Knows value) :
    Agrees link left right (complete value) (complete value) stateAnswer := by
  apply agrees_get_bind
  rcases machines.frames_cases with ⟨leftNone, rightNone⟩ |
    ⟨leftFrame, leftRest, rightFrame, rightRest, leftFrames, rightFrames, frames, below⟩
  · rw [leftNone, rightNone]
    exact agrees_throw machines (by decide)
  · rw [leftFrames, rightFrames]
    have popped := machines.withFrames below
    apply agrees_modify_bind (Link.Within.refl link)
    cases below with
    | nil =>
        refine agrees_modify_bind (Link.Within.refl link) (agrees_pure ?_ ⟨rfl, ?_⟩)
        · exact { popped with
            result := rfl
            resultValue := fun _ member => Option.some.inj member ▸ known }
        · rintro _ ⟨⟩
          exact known
    | cons =>
        have pending := frames.loop
        generalize leftFrame.loop = leftLoop, rightFrame.loop = rightLoop at pending ⊢
        cases pending with
        | none =>
            exact agrees_andGoOn (agrees_push popped known)
        | some loops =>
            apply (agrees_onStore popped (agrees_resume popped.stores loops known)).bind
            intro later leftReached rightReached leftAction rightAction _ laterMachines actions
            exact agrees_andGoOn (agrees_perform laterMachines actions)

theorem unwind?_forall₂ {leftFrames rightFrames : List Frame} {leftHome rightHome : FrameId}
    (paired : link.pairing.numbers leftHome rightHome)
    (frames : List.Forall₂ link.Frames leftFrames rightFrames) :
    (unwind? leftHome leftFrames = none ∧ unwind? rightHome rightFrames = none) ∨
      ∃ leftRest rightRest, unwind? leftHome leftFrames = some leftRest ∧
        unwind? rightHome rightFrames = some rightRest ∧
        List.Forall₂ link.Frames leftRest rightRest := by
  induction frames with
  | nil =>
      exact Or.inl ⟨rfl, rfl⟩
  | @cons leftFrame rightFrame leftRest rightRest innermost below inductionHypothesis =>
      unfold unwind?
      by_cases isHome : leftFrame.id = leftHome
      · rw [if_pos isHome, if_pos ((innermost.number paired).mp isHome)]
        exact Or.inr ⟨_, _, rfl, rfl, .cons innermost below⟩
      · rw [if_neg isHome, if_neg fun isOther => isHome ((innermost.number paired).mpr isOther)]
        exact inductionHypothesis

theorem unwind?_self {frames : List Frame} (home : FrameId)
    (linked : List.Forall₂ link.Frames frames frames) :
    unwind? home frames = none ∨
      ∃ rest, unwind? home frames = some rest ∧ List.Forall₂ link.Frames rest rest := by
  induction frames with
  | nil =>
      exact Or.inl rfl
  | cons innermost below inductionHypothesis =>
      unfold unwind?
      split
      · exact Or.inr ⟨_, rfl, linked⟩
      · exact inductionHypothesis (List.forall₂_cons.mp linked).2

/-- Taking an operand from the innermost activation changes nothing else about it. -/
theorem head?_of_pop {machine reached : Machine} {value : Value}
    (popped : pop machine = .ok value reached) :
    ∃ innermost stack, machine.frames.head? = some innermost ∧
      reached.frames.head? = some { innermost with stack := stack } := by
  cases machine with | mk _ frames =>
  cases frames with
  | nil =>
      cases popped
  | cons innermost rest =>
      obtain ⟨_, _, _, _, _, stack⟩ := innermost
      cases stack with
      | nil =>
          cases popped
      | cons value operands =>
          cases popped
          exact ⟨_, operands, rfl, rfl⟩

/-- Going on to the next place changes nothing else about an activation. -/
theorem head?_of_advance {machine reached : Machine} {innermost : Frame}
    (isInnermost : machine.frames.head? = some innermost)
    (advanced : modifyFrame (fun frame => { frame with ip := frame.ip + 1 }) machine =
      .ok () reached) :
    reached.frames.head? = some { innermost with ip := innermost.ip + 1 } := by
  cases machine with | mk _ frames =>
  cases frames with
  | nil =>
      cases isInnermost
  | cons _ rest =>
      cases isInnermost
      cases advanced
      rfl

/-- What two instructions say does not depend on the operands. -/
theorem Concur.of_pop {later : Link} {leftReached rightReached : Machine} {a b : Value}
    (concur : Concur link left right leftInstruction rightInstruction)
    (leftPopped : pop left = .ok a leftReached) (rightPopped : pop right = .ok b rightReached)
    (within : Link.Within link later) :
    Concur later leftReached rightReached leftInstruction rightInstruction := by
  obtain ⟨leftFrame, leftStack, leftTop, leftAfter⟩ := head?_of_pop leftPopped
  obtain ⟨rightFrame, rightStack, rightTop, rightAfter⟩ := head?_of_pop rightPopped
  refine .intro leftAfter rightAfter ?_
  cases concur.innermost leftTop rightTop with
  | same returns together =>
      exact .same (within.pairing ▸ returns) (within.pairing ▸ together)
  | denoted proper leftDenotes rightDenotes homes =>
      exact .denoted proper leftDenotes rightDenotes (within.pairing ▸ homes)

section Jumps

variable (machines : link.Machines left right)
  (concur : Concur link left right leftInstruction rightInstruction)
include machines concur

theorem agrees_returnFromHome {value : Value} (isReturn : leftInstruction.opcode = .nonLocalReturn)
    (known : link.Knows value) :
    Agrees link left right (returnFromHome value) (returnFromHome value) stateAnswer := by
  refine agrees_innermost_bind machines fun {leftFrame _} leftTop rightTop frames => ?_
  have paired := (concur.innermost leftTop rightTop).home isReturn
  obtain ⟨id, home, code, ip, context, loop, rfl⟩ := frames.shape
  dsimp only
  split
  · apply agrees_get_bind
    rcases unwind?_forall₂ paired machines.frames with ⟨leftNone, rightNone⟩ |
      ⟨leftRest, rightRest, leftFound, rightFound, rest⟩
    · rw [leftNone, rightNone]
      exact agrees_throw_bind machines (by decide)
    · rw [leftFound, rightFound]
      exact agrees_modify_bind (Link.Within.refl link)
        (agrees_complete (machines.withFrames rest) known)
  · exact agrees_complete machines known

variable (isTarget : leftInstruction.opcode.operandKind = .target)
include isTarget

theorem agrees_jump (operand : Int32) :
    Agrees link left right (jump operand) (jump operand) anyAnswer := by
  refine agrees_modifyFrame machines fun leftTop rightTop frames => ?_
  obtain ⟨_, together⟩ := (concur.innermost leftTop rightTop).target isTarget
  obtain ⟨id, home, code, ip, context, loop, rfl⟩ := frames.shape
  exact { frames with
    same := rfl
    stands := .together ⟨together.code, rfl, together.homes, together.shared⟩ }

theorem agrees_jumpIfFalse (operand : Int32) :
    Agrees link left right (jumpIfFalse operand) (jumpIfFalse operand) anyAnswer := by
  apply (agrees_pop machines).bind_of_ok
  rintro later leftReached rightReached value _ leftPopped rightPopped within laterMachines
    ⟨rfl, known⟩
  split
  · exact agrees_jump laterMachines (concur.of_pop leftPopped rightPopped within) isTarget operand
  · exact agrees_pure laterMachines trivial
  · apply agrees_get_bind
    rw [laterMachines.stores.className known]
    exact agrees_throw laterMachines (by nofun)

end Jumps

/-! ## Instructions -/

theorem agrees_execute (machines : link.Machines left right)
    (concur : Concur link left right leftInstruction rightInstruction) :
    Agrees link left right (execute leftInstruction) (execute rightInstruction) stateAnswer := by
  have samePlain := concur.operand
  have sameTarget := concur.target
  obtain ⟨opcode, leftOperand⟩ := leftInstruction
  obtain ⟨_, rightOperand⟩ := rightInstruction
  obtain rfl : opcode = _ := concur.opcode
  cases opcode with
  | pushConstant =>
      exact agrees_andGoOn (agrees_pushConstant rfl machines concur)
  | pop =>
      refine agrees_andGoOn ((agrees_pop machines).bind fun _ laterMachines _ => ?_)
      exact agrees_pure laterMachines trivial
  | dup =>
      refine agrees_andGoOn ((agrees_peek machines).bind ?_)
      rintro later leftReached rightReached value _ _ laterMachines ⟨rfl, known⟩
      exact agrees_push laterMachines known
  | loadLocal =>
      obtain rfl := samePlain rfl
      exact agrees_andGoOn (agrees_frame_bind machines
        fun frames => agrees_loadSlot _ machines frames.context)
  | storeLocal =>
      obtain rfl := samePlain rfl
      refine agrees_andGoOn ((agrees_peek machines).bind ?_)
      rintro later leftReached rightReached value _ _ laterMachines ⟨rfl, known⟩
      exact agrees_frame_bind laterMachines
        fun frames => agrees_storeSlot _ laterMachines frames.context known
  | loadOuter =>
      obtain rfl := samePlain rfl
      refine agrees_andGoOn ((agrees_outerSlot _ machines).bind ?_)
      rintro later leftReached rightReached ⟨leftContext, slot⟩ ⟨rightContext, _⟩ _ laterMachines
        ⟨linked, rfl⟩
      exact agrees_loadSlot slot laterMachines linked
  | storeOuter =>
      obtain rfl := samePlain rfl
      refine agrees_andGoOn ((agrees_outerSlot _ machines).bind ?_)
      rintro later leftReached rightReached ⟨leftContext, slot⟩ ⟨rightContext, _⟩ _ laterMachines
        ⟨linked, rfl⟩
      apply (agrees_peek laterMachines).bind
      rintro last leftLast rightLast value _ within lastMachines ⟨rfl, known⟩
      exact agrees_storeSlot slot lastMachines (within.contexts linked) known
  | loadField =>
      obtain rfl := samePlain rfl
      exact agrees_andGoOn (agrees_loadField _ machines)
  | storeField =>
      obtain rfl := samePlain rfl
      exact agrees_andGoOn (agrees_storeField _ machines)
  | loadClassVar =>
      exact agrees_andGoOn (agrees_loadClassVar rfl machines concur)
  | storeClassVar =>
      exact agrees_andGoOn (agrees_storeClassVar rfl machines concur)
  | loadGlobal =>
      exact agrees_andGoOn (agrees_loadGlobal rfl machines concur)
  | storeGlobal =>
      exact agrees_andGoOn (agrees_storeGlobal rfl machines concur)
  | send =>
      refine agrees_andGoOn ((agrees_takeMessage rfl machines concur).bind ?_)
      rintro later leftReached rightReached ⟨receiver, selector, arguments⟩ _ _ laterMachines
        ⟨rfl, knownReceiver, known⟩
      exact agrees_send laterMachines knownReceiver known selector
  | superSend =>
      refine agrees_andGoOn ((agrees_takeMessage rfl machines concur).bind ?_)
      rintro later leftReached rightReached ⟨receiver, selector, arguments⟩ _ _ laterMachines
        ⟨rfl, knownReceiver, known⟩
      exact agrees_superSend laterMachines knownReceiver known selector
  | jump =>
      obtain rfl := sameTarget rfl
      exact agrees_andGoOn (agrees_jump machines concur rfl leftOperand)
  | jumpIfFalse =>
      obtain rfl := sameTarget rfl
      exact agrees_andGoOn (agrees_jumpIfFalse machines concur rfl leftOperand)
  | pushSelf =>
      refine agrees_andGoOn (agrees_frame_bind machines fun frames => ?_)
      obtain ⟨id, home, code, ip, context, loop, rfl⟩ := frames.shape
      exact agrees_push machines frames.receiver
  | pushNil =>
      exact agrees_andGoOn (agrees_push machines Link.knows_nil)
  | pushTrue | pushFalse =>
      exact agrees_andGoOn (agrees_push machines (Link.knows_bool _))
  | newInstance =>
      exact agrees_andGoOn (agrees_newInstance machines)
  | defineClass =>
      exact agrees_andGoOn (agrees_defineClass rfl machines concur)
  | makeClosure =>
      exact agrees_andGoOn (agrees_makeClosure rfl machines concur)
  | makeArray =>
      obtain rfl := samePlain rfl
      exact agrees_andGoOn (agrees_makeArray _ machines)
  | makeDictionary =>
      obtain rfl := samePlain rfl
      exact agrees_andGoOn (agrees_makeDictionary _ machines)
  | «return» =>
      apply (agrees_pop machines).bind
      rintro later leftReached rightReached value _ _ laterMachines ⟨rfl, known⟩
      exact agrees_complete laterMachines known
  | nonLocalReturn =>
      apply (agrees_pop machines).bind_of_ok
      rintro later leftReached rightReached value _ leftPopped rightPopped within laterMachines
        ⟨rfl, known⟩
      exact agrees_returnFromHome laterMachines (concur.of_pop leftPopped rightPopped within) rfl
        known

/-- What a step does after it was counted and the garbage was collected. -/
def instructionStep : Exec StepState := do
  let current ← frame
  match current.code.code[current.ip]? with
  | some instruction =>
    modifyFrame fun frame => { frame with ip := frame.ip + 1 }
    execute instruction
  | none => complete (current.stack.headD .nil)

theorem step_eq : step = (do countStep; collectIfNeeded; instructionStep) := rfl

/-- What an activation answers when it runs off the end of its code. -/
theorem knows_headD {stack : List Value} (known : ∀ value ∈ stack, link.Knows value) :
    link.Knows (stack.headD .nil) := by
  cases stack with
  | nil =>
      exact Link.knows_nil
  | cons value rest =>
      exact known value List.mem_cons_self

end Exec

namespace Pairing

/-- Two activations in code of their own have the same operation before them, or both are at the
end. -/
inductive Ready (pairing : Pairing) (left right : Frame) : Prop
  | onward {op : Op} {leftInstruction rightInstruction : Instruction} :
      left.code.code[left.ip]? = some leftInstruction →
      right.code.code[right.ip]? = some rightInstruction → op.Proper →
      op.Denotes left.code.constants leftInstruction →
      op.Denotes right.code.constants rightInstruction →
      (∀ body, .block body ∈ op.constants → pairing.Homes body left.home right.home) →
      pairing.places left.standing.next right.standing.next → Ready pairing left right
  | atEnd : left.code.code[left.ip]? = none → right.code.code[right.ip]? = none →
      Ready pairing left right

/-- The innermost of the activations can take a step together. -/
def ReadyAmong (pairing : Pairing) (left right : List Frame) : Prop :=
  ∀ leftFrame ∈ left.head?, ∀ rightFrame ∈ right.head?,
    pairing.places leftFrame.standing rightFrame.standing → pairing.Ready leftFrame rightFrame

end Pairing

namespace Exec

variable {link : Link} {left right : Machine}

/-- The innermost activations go on to the next place. -/
theorem agrees_advanceFrame (machines : link.Machines left right)
    (onward : ∀ {leftFrame rightFrame}, left.frames.head? = some leftFrame →
      right.frames.head? = some rightFrame → link.Frames leftFrame rightFrame →
      link.pairing.Stands leftFrame.standing.next rightFrame.standing.next) :
    Agrees link left right (modifyFrame fun frame => { frame with ip := frame.ip + 1 })
      (modifyFrame fun frame => { frame with ip := frame.ip + 1 }) anyAnswer := by
  refine agrees_modifyFrame machines fun leftTop rightTop frames => ?_
  have stands := onward leftTop rightTop frames
  obtain ⟨id, home, code, ip, context, loop, rfl⟩ := frames.shape
  exact { frames with same := rfl, stands := stands }

theorem agrees_advanceFrame_of_same (isSame : link.pairing = .same)
    (machines : link.Machines left right) :
    Agrees link left right (modifyFrame fun frame => { frame with ip := frame.ip + 1 })
      (modifyFrame fun frame => { frame with ip := frame.ip + 1 }) anyAnswer := by
  refine agrees_advanceFrame machines fun _ _ frames => ?_
  cases frames.stands with
  | together together =>
      exact .together together.next
  | apart _ places =>
      rw [isSame] at places
      exact places.elim

/-- The innermost activations go on to the next place, where the instructions say the same. -/
theorem agrees_advance {leftFrame rightFrame : Frame}
    {leftInstruction rightInstruction : Instruction} (machines : link.Machines left right)
    (leftTop : left.frames.head? = some leftFrame)
    (rightTop : right.frames.head? = some rightFrame)
    (stands : link.pairing.Stands leftFrame.standing.next rightFrame.standing.next)
    (concurs : Concurs link leftFrame rightFrame leftInstruction rightInstruction) :
    Agrees link left right
      (do
        modifyFrame fun frame => { frame with ip := frame.ip + 1 }
        execute leftInstruction)
      (do
        modifyFrame fun frame => { frame with ip := frame.ip + 1 }
        execute rightInstruction) stateAnswer := by
  have advanced := agrees_advanceFrame machines fun leftAgain rightAgain _ => by
    cases leftTop.symm.trans leftAgain
    cases rightTop.symm.trans rightAgain
    exact stands
  apply advanced.bind_of_ok
  intro later leftReached rightReached _ _ leftAdvanced rightAdvanced within laterMachines _
  refine agrees_execute laterMachines (.intro (head?_of_advance leftTop leftAdvanced)
    (head?_of_advance rightTop rightAdvanced) ?_)
  cases concurs with
  | same returns together =>
      exact .same (within.pairing ▸ returns) (within.pairing ▸ together.next)
  | denoted proper leftDenotes rightDenotes homes =>
      exact .denoted proper leftDenotes rightDenotes (within.pairing ▸ homes)

theorem agrees_instructionStep (machines : link.Machines left right)
    (ready : link.pairing.ReadyAmong left.frames right.frames) :
    Agrees link left right instructionStep instructionStep stateAnswer := by
  refine agrees_innermost_bind machines fun {leftFrame rightFrame} leftTop rightTop frames => ?_
  have sameStack : rightFrame.stack = leftFrame.stack := by rw [frames.same]
  have ended := agrees_complete machines (knows_headD frames.stack)
  cases frames.stands with
  | together together =>
      rw [together.sameCode, together.samePlace, sameStack]
      split
      · rename_i instruction isNext
        refine agrees_advance machines leftTop rightTop (.together together.next)
          (.same (fun isReturn => ?_) together)
        rcases together.homes with paired | ⟨noReturn, _⟩
        · exact paired
        · exact (noReturn _ (Array.mem_toList_iff.mpr (Array.mem_of_getElem? isNext)) isReturn).elim
      · exact ended
  | apart isProgram places =>
      cases ready _ leftTop _ rightTop places with
      | onward leftNext rightNext proper leftDenotes rightDenotes homes further =>
          rw [leftNext, rightNext]
          exact agrees_advance machines leftTop rightTop (.apart isProgram further)
            (.denoted proper leftDenotes rightDenotes homes)
      | atEnd leftNone rightNone =>
          rw [leftNone, rightNone, sameStack]
          exact ended

end Exec

end Missive
