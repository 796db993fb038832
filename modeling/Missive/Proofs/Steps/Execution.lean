import Missive.Proofs.Alike.Transcript
import Missive.Proofs.Safety.Execution
import Missive.Proofs.Steps.Moves

/-!
# Execution consists of moves

Every computation of a machine, whether it succeeds or fails, takes the machine from one state to
another by moves.  A fault that lies in the operand of an instruction arises only where the operand
does not select what the instruction needs: a constant, a variable of an outer block, a field of the
receiver or a class variable of the running method.

That a block which is called lies in the store is known from the link of a machine with itself:
nothing has gone away that the machine holds on to.
-/

namespace Missive

/-- The cause is that an operand is not valid. -/
def Cause.isInvalidOperand : Cause → Bool
  | .invalidOperand .. => true
  | _ => false

theorem ClassObject.mem_of_method? {definition : ClassObject} {classSide : Bool}
    {selector : Selector} {method : MethodDescriptor}
    (found : definition.method? classSide selector = some method) :
    method ∈ definition.methods ++ definition.classMethods := by
  unfold ClassObject.method? at found
  have member := List.mem_reverse.mp (List.mem_of_find?_eq_some found)
  cases classSide with
  | false =>
      exact List.mem_append_left _ member
  | true =>
      exact List.mem_append_right _ member

theorem ClassObject.selector_of_method? {definition : ClassObject} {classSide : Bool}
    {selector : Selector} {method : MethodDescriptor}
    (found : definition.method? classSide selector = some method) : method.selector = selector := by
  unfold ClassObject.method? at found
  simpa using List.find?_some found

/-- What the operand of an instruction does not select when the instruction fails for the cause. -/
def Instruction.Lacks (store : Store) (contexts : Arena) (frame : Frame)
    (instruction : Instruction) : Cause → Prop
  | .fieldOutOfRange .. => instruction.opcode.operandKind = .field ∧
    ∃ id classId values, store.see frame.receiver = .record id classId values ∧
      values.length ≤ Exec.elementCount instruction.operand
  | .undefinedClassVariable name =>
    (instruction.opcode = .loadClassVar ∨ instruction.opcode = .storeClassVar) ∧
      selected frame.code.constants instruction.operand = some (.string name) ∧
      ∃ id, frame.owner = some id ∧ store.classVarOwner? id name = none
  | _ => instruction.Misses frame.code.constants contexts frame.context

/-- The operand does not select what the innermost activation needs for the instruction. -/
def Machine.Misses (machine : Machine) (instruction : Instruction) (cause : Cause) : Prop :=
  ∃ current rest, machine.frames = current :: rest ∧
    instruction.Lacks machine.store machine.contexts current cause

/-- The operand selects a name. -/
def Machine.Names (machine : Machine) (instruction : Instruction) (name : String) : Prop :=
  ∃ current rest, machine.frames = current :: rest ∧
    Instruction.selected current.code.constants instruction.operand = some (.string name)

/-- Operands were taken from the stack of the innermost activation. -/
def Machine.Took (count : Nat) (before after : Machine) : Prop :=
  ∃ current rest, before.frames = current :: rest ∧ count ≤ current.stack.length ∧
    after = { before with frames := { current with stack := current.stack.drop count } :: rest }

theorem Machine.Took.trans {first second third : Machine} {count further : Nat}
    (earlier : Machine.Took count first second) (later : Machine.Took further second third) :
    Machine.Took (count + further) first third := by
  obtain ⟨current, rest, frames, enough, rfl⟩ := earlier
  obtain ⟨_, _, sameFrames, enoughLeft, rfl⟩ := later
  cases sameFrames
  simp only [List.length_drop] at enoughLeft
  refine ⟨current, rest, frames, by omega, ?_⟩
  simp [List.drop_drop]

theorem Machine.Took.operands {before after : Machine} {count : Nat}
    (took : Machine.Took count before after) :
    after.operands = before.operands.drop count := by
  obtain ⟨current, rest, frames, _, rfl⟩ := took
  rw [Machine.operands, Machine.operands, frames]

/-- Where an operand was taken, there is room for another one. -/
theorem Machine.Took.hasRoom {before after : Machine} {count : Nat}
    (took : Machine.Took (count + 1) before after) (bounded : before.Bounded) :
    after.HasRoom := by
  obtain ⟨current, rest, frames, enough, rfl⟩ := took
  obtain ⟨innermost, waiting⟩ := (Machine.bounded_cons frames).mp bounded
  refine ⟨List.cons_ne_nil _ _, List.forall_mem_cons.mpr ⟨?_, waiting⟩⟩
  simp only [List.length_drop]
  omega

namespace Exec

/-! ## Computations that proceed by moves -/

/-- The machine has moved on, and the computation has ended as wanted or failed.  If it has failed
because of an operand, something was amiss. -/
inductive Proceeded {α : Type} (licence : Licence) (start : Machine) (amiss : Cause → Prop)
    (good : α → Machine → Prop) : EStateM.Result Cause Machine α → Prop
  | ok {answer : α} {reached : Machine} : start.Moves licence reached → good answer reached →
      Proceeded licence start amiss good (.ok answer reached)
  | error {cause : Cause} {reached : Machine} : start.Moves licence reached →
      (cause.isOfOperand = true → amiss cause) →
      Proceeded licence start amiss good (.error cause reached)

/-- From the machine, the computation proceeds by moves. -/
def Proceeds {α : Type} (licence : Licence) (machine : Machine) (x : Exec α) (amiss : Cause → Prop)
    (good : α → Machine → Prop) : Prop :=
  Proceeded licence machine amiss good (x machine)

/-- Nothing is said about the answer and the machine reached. -/
def anyEnd {α : Type} (_ : α) (_ : Machine) : Prop := True

/-- The machine has not changed. -/
def unchanged {α : Type} (machine : Machine) (_ : α) (reached : Machine) : Prop :=
  machine = reached

variable {α β : Type} {licence : Licence} {machine : Machine} {amiss : Cause → Prop}
  {good : α → Machine → Prop}

theorem proceeds_pure {a : α} (isGood : good a machine) :
    Proceeds licence machine (pure a) amiss good :=
  .ok .refl isGood

theorem proceeds_throw {cause : Cause} (other : cause.isOfOperand = false) :
    Proceeds licence machine (throw cause) amiss good :=
  .error .refl fun invalid => by rw [other] at invalid; cases invalid

theorem proceeds_throw_bind {cause : Cause} {f : β → Exec α}
    (other : cause.isOfOperand = false) :
    Proceeds licence machine (throw cause >>= f) amiss good :=
  .error .refl fun invalid => by rw [other] at invalid; cases invalid

/-- An operand is not valid, and something is amiss. -/
theorem proceeds_throw_amiss {cause : Cause} (isAmiss : amiss cause) :
    Proceeds licence machine (throw cause) amiss good :=
  .error .refl fun _ => isAmiss

theorem Proceeded.after {start : Machine} {result : EStateM.Result Cause Machine α}
    (moves : start.Moves licence machine)
    (proceeded : Proceeded licence machine amiss good result) :
    Proceeded licence start amiss good result := by
  cases proceeded with
  | ok further isGood =>
      exact .ok (moves.trans further) isGood
  | error further causes =>
      exact .error (moves.trans further) causes

theorem Proceeds.bind {x : Exec α} {f : α → Exec β} {goodLater : β → Machine → Prop}
    (first : Proceeds licence machine x amiss good)
    (next : ∀ {a reached}, x machine = .ok a reached → good a reached →
      Proceeds licence reached (f a) amiss goodLater) :
    Proceeds licence machine (x >>= f) amiss goodLater := by
  change Proceeded licence machine amiss goodLater (EStateM.bind x f machine)
  unfold Proceeds at first
  unfold EStateM.bind
  cases outcome : x machine with
  | ok a reached =>
      rw [outcome] at first
      cases first with
      | ok moves isGood =>
          exact (next outcome isGood).after moves
  | error cause reached =>
      rw [outcome] at first
      cases first with
      | error moves causes =>
          exact .error moves causes

theorem Proceeds.mono {x : Exec α} {better : α → Machine → Prop}
    (proceeds : Proceeds licence machine x amiss better)
    (weaker : ∀ {a reached}, better a reached → good a reached) :
    Proceeds licence machine x amiss good := by
  unfold Proceeds at proceeds ⊢
  generalize x machine = result at proceeds ⊢
  cases proceeds with
  | ok moves isGood =>
      exact .ok moves (weaker isGood)
  | error moves causes =>
      exact .error moves causes

/-- What is amiss may be said in other words. -/
theorem Proceeds.reword {x : Exec α} {wrong : Cause → Prop}
    (proceeds : Proceeds licence machine x wrong good)
    (implies : ∀ {cause}, wrong cause → amiss cause) :
    Proceeds licence machine x amiss good := by
  unfold Proceeds at proceeds ⊢
  generalize x machine = result at proceeds ⊢
  cases proceeds with
  | ok moves isGood =>
      exact .ok moves isGood
  | error moves causes =>
      exact .error moves fun invalid => implies (causes invalid)

theorem Proceeds.of_ok {x : Exec α} {answer : α} {reached : Machine}
    (proceeds : Proceeds licence machine x amiss good) (answered : x machine = .ok answer reached) :
    machine.Moves licence reached ∧ good answer reached := by
  unfold Proceeds at proceeds
  rw [answered] at proceeds
  cases proceeds with
  | ok moves isGood =>
      exact ⟨moves, isGood⟩

theorem proceeds_get_bind {f : Machine → Exec α}
    (next : Proceeds licence machine (f machine) amiss good) :
    Proceeds licence machine (get >>= f) amiss good :=
  next

theorem proceeds_settle_bind {outcome : Store → Except Crash β} {f : β → Exec α}
    (next : ∀ result, Proceeds licence machine (f result) amiss good) :
    Proceeds licence machine ((onStore do settle (outcome (← get))) >>= f) amiss good := by
  unfold Proceeds
  rw [onStore_settle_bind]
  cases outcome machine.store with
  | ok result =>
      exact next result
  | error crash =>
      exact .error .refl nofun

theorem proceeds_modify {change : Machine → Machine} {good : Unit → Machine → Prop}
    (move : machine.Move licence (change machine)) (isGood : good () (change machine)) :
    Proceeds licence machine (modify change) amiss good :=
  .ok (.single move) isGood

theorem proceeds_modify_bind {change : Machine → Machine} {f : Unit → Exec α}
    (move : machine.Move licence (change machine))
    (next : Proceeds licence (change machine) (f ()) amiss good) :
    Proceeds licence machine (modify change >>= f) amiss good :=
  next.after (.single move)

/-! ## The innermost activation -/

theorem proceeds_frame_bind {f : Frame → Exec α}
    (next : ∀ current rest, machine.frames = current :: rest →
      Proceeds licence machine (f current) amiss good) :
    Proceeds licence machine (frame >>= f) amiss good := by
  change Proceeded licence machine amiss good (EStateM.bind frame f machine)
  unfold EStateM.bind
  cases frames : machine.frames with
  | nil =>
      rw [frame_of_nil frames]
      exact .error .refl nofun
  | cons current rest =>
      rw [frame_of_cons frames]
      exact next current rest frames

theorem modifyFrame_of_cons {current : Frame} {rest : List Frame}
    (frames : machine.frames = current :: rest) (change : Frame → Frame) :
    modifyFrame change machine = .ok () { machine with frames := change current :: rest } := by
  cases machine
  cases frames
  rfl

theorem proceeds_modifyFrame {change : Frame → Frame} {current : Frame} {rest : List Frame}
    (frames : machine.frames = current :: rest)
    (move : machine.Move licence { machine with frames := change current :: rest }) :
    Proceeds licence machine (modifyFrame change) amiss
      fun _ reached => reached = { machine with frames := change current :: rest } := by
  unfold Proceeds
  rw [modifyFrame_of_cons frames]
  exact .ok (.single move) rfl

/-! ## The stack of operands -/

theorem proceeds_push (value : Value) : Proceeds licence machine (push value) amiss anyEnd := by
  refine proceeds_get_bind (proceeds_frame_bind fun current rest frames => ?_)
  dsimp only
  split
  · exact proceeds_throw_bind rfl
  · rename_i room
    have move : machine.Move licence _ := .push value frames (Nat.lt_of_not_le room)
    exact (proceeds_modifyFrame frames move).mono fun _ => trivial

theorem proceeds_pushTracked (value : Value) :
    Proceeds licence machine (pushTracked value) amiss anyEnd :=
  proceeds_modify_bind (.quiet (.ofStore (Store.inherits_track machine.store value)))
    (proceeds_push value)

theorem proceeds_pop :
    Proceeds licence machine pop amiss fun value reached =>
      machine.Took 1 reached ∧ machine.operands[0]? = some value := by
  refine proceeds_frame_bind fun current rest frames => ?_
  cases operands : current.stack with
  | nil =>
      exact proceeds_throw rfl
  | cons value others =>
      have isRest : current.stack.drop 1 = others := by rw [operands, List.drop_one, List.tail_cons]
      have move : machine.Move licence _ := .drop 1 frames
      rw [isRest] at move
      refine (proceeds_modifyFrame frames move).bind fun _ isReached => ?_
      subst isReached
      refine proceeds_pure ⟨⟨current, rest, frames, by simp [operands], by rw [isRest]⟩, ?_⟩
      simp [Machine.operands, frames, operands]

theorem proceeds_peek : Proceeds licence machine peek amiss (unchanged machine) := by
  refine proceeds_frame_bind fun current rest frames => ?_
  split
  · exact proceeds_pure rfl
  · exact proceeds_throw rfl

theorem proceeds_popMany (count : Nat) :
    Proceeds licence machine (popMany count) amiss fun _ reached => machine.Took count reached := by
  refine proceeds_frame_bind fun current rest frames => ?_
  dsimp only
  split
  · exact proceeds_throw_bind rfl
  · rename_i notFewer
    have enough : count ≤ current.stack.length := by
      rw [List.length_take] at notFewer
      omega
    refine (proceeds_modifyFrame frames (.drop count frames)).bind fun _ isReached => ?_
    exact proceeds_pure ⟨current, rest, frames, enough, isReached⟩

/-! ## Operands of instructions -/

theorem proceeds_constantAt?_bind {index : Option Nat} {f : Option Constant → Exec α}
    (next : ∀ current rest, machine.frames = current :: rest →
      Proceeds licence machine (f (index.bind fun index => current.code.constants[index]?)) amiss
        good) :
    Proceeds licence machine (constantAt? index >>= f) amiss good := by
  unfold constantAt?
  rw [bind_assoc]
  exact proceeds_frame_bind next

theorem proceeds_nameOperand {instruction : Instruction}
    (kind : instruction.opcode.operandKind = .name) :
    Proceeds licence machine (nameOperand instruction) (machine.Misses instruction)
      fun name reached => machine = reached ∧ machine.Names instruction name := by
  refine proceeds_constantAt?_bind fun current rest frames => ?_
  split
  · rename_i isSelected
    exact proceeds_pure ⟨rfl, current, rest, frames, isSelected⟩
  · rename_i other
    refine proceeds_throw_amiss ⟨current, rest, frames, ?_⟩
    simp only [Instruction.Lacks, Instruction.Misses, kind]
    exact other

/-! ## Variables -/

theorem proceeds_loadSlot (context : ContextId) (slot : Nat) :
    Proceeds licence machine (loadSlot context slot) amiss anyEnd := by
  apply proceeds_get_bind
  cases machine.contexts.load? context slot with
  | none =>
      exact proceeds_throw_bind rfl
  | some value =>
      exact proceeds_push value

theorem proceeds_storeSlot (allowed : licence.stores) (context : ContextId) (slot : Nat)
    (value : Value) :
    Proceeds licence machine (storeSlot context slot value) amiss anyEnd := by
  apply proceeds_get_bind
  split
  · rename_i isLive
    exact proceeds_modify (.store slot value allowed isLive) trivial
  · exact proceeds_throw rfl

theorem proceeds_outerSlot {instruction : Instruction}
    (kind : instruction.opcode.operandKind = .outer) :
    Proceeds licence machine (outerSlot instruction) (machine.Misses instruction)
      (unchanged machine) := by
  unfold outerSlot
  dsimp only
  refine proceeds_get_bind (proceeds_frame_bind fun current rest frames => ?_)
  cases resolved : machine.contexts.resolve? current.context
      (Instruction.unpack instruction.operand).2 with
  | none =>
      exact proceeds_throw_bind rfl
  | some target =>
      cases target with
      | some context =>
          exact proceeds_pure rfl
      | none =>
          refine proceeds_throw_amiss ⟨current, rest, frames, ?_⟩
          simp only [Instruction.Lacks, Instruction.Misses, kind]
          exact resolved

theorem proceeds_receiverRecord :
    Proceeds licence machine receiverRecord amiss fun answer reached =>
      machine = reached ∧ ∃ current rest, machine.frames = current :: rest ∧
        machine.store.see current.receiver = .record answer.1 answer.2.1 answer.2.2 := by
  refine proceeds_frame_bind fun current rest frames => proceeds_get_bind ?_
  dsimp only
  split
  · rename_i seen
    exact proceeds_pure ⟨rfl, current, rest, frames, seen⟩
  · exact proceeds_throw rfl

section Fields

variable {instruction : Instruction} (kind : instruction.opcode.operandKind = .field)
include kind

/-- The receiver has fewer fields than the operand asks for. -/
theorem proceeds_fieldFault {current : Frame} {rest : List Frame} {id classId : ObjectId}
    {values : List Value} (frames : machine.frames = current :: rest)
    (seen : machine.store.see current.receiver = .record id classId values)
    (few : values.length ≤ elementCount instruction.operand) :
    Proceeds licence machine (do throw (← fieldFault classId (elementCount instruction.operand)))
      (machine.Misses instruction) good :=
  .error .refl fun _ => ⟨current, rest, frames, kind, id, classId, values, seen, few⟩

theorem proceeds_loadField :
    Proceeds licence machine (loadField (elementCount instruction.operand))
      (machine.Misses instruction) anyEnd := by
  apply proceeds_receiverRecord.bind
  rintro ⟨id, classId, values⟩ _ _ ⟨rfl, current, rest, frames, seen⟩
  dsimp only
  split
  · exact proceeds_push _
  · rename_i missing
    exact proceeds_fieldFault kind frames seen (List.getElem?_eq_none_iff.mp missing)

theorem proceeds_storeField :
    Proceeds licence machine (storeField (elementCount instruction.operand))
      (machine.Misses instruction) anyEnd := by
  apply proceeds_receiverRecord.bind
  rintro ⟨id, classId, values⟩ _ _ ⟨rfl, current, rest, frames, seen⟩
  apply proceeds_peek.bind
  rintro value _ _ rfl
  split
  · have found := (Store.of_see_record seen).2
    exact proceeds_modify (.quiet (.ofStore (Store.inherits_setField found _ value)))
      trivial
  · rename_i beyond
    exact proceeds_fieldFault kind frames seen (Nat.le_of_not_lt beyond)

end Fields

theorem proceeds_owner (opcode : Opcode) :
    Proceeds licence machine (owner opcode) amiss fun id reached =>
      machine = reached ∧ ∃ current rest, machine.frames = current :: rest ∧
        current.owner = some id := by
  refine proceeds_frame_bind fun current rest frames => ?_
  split
  · rename_i isOwner
    exact proceeds_pure ⟨rfl, current, rest, frames, isOwner⟩
  · exact proceeds_throw rfl

/-- No class from that of the running method upward declares the class variable. -/
theorem misses_classVar {instruction : Instruction} (isUse : instruction.opcode = .loadClassVar ∨
      instruction.opcode = .storeClassVar) {name : String} {id : ObjectId}
    (isName : machine.Names instruction name) (isOwner : ∃ current rest,
      machine.frames = current :: rest ∧ current.owner = some id)
    (undeclared : machine.store.classVarOwner? id name = none) :
    machine.Misses instruction (.undefinedClassVariable name) := by
  obtain ⟨current, rest, frames, isOwner⟩ := isOwner
  obtain ⟨_, _, sameFrames, isSelected⟩ := isName
  rw [frames] at sameFrames
  cases sameFrames
  exact ⟨current, rest, frames, isUse, isSelected, id, isOwner, undeclared⟩

section Named

variable {instruction : Instruction} (kind : instruction.opcode.operandKind = .name)
include kind

theorem proceeds_loadClassVar (isLoad : instruction.opcode = .loadClassVar) :
    Proceeds licence machine (loadClassVar instruction) (machine.Misses instruction) anyEnd := by
  apply (proceeds_nameOperand kind).bind
  rintro name _ _ ⟨rfl, isName⟩
  apply (proceeds_owner _).bind
  rintro id _ _ ⟨rfl, isOwner⟩
  apply proceeds_get_bind
  split
  · exact proceeds_push _
  · rename_i undefined
    exact proceeds_throw_amiss
      (misses_classVar (Or.inl isLoad) isName isOwner (Store.classVar?_eq_none_iff.mp undefined))

theorem proceeds_storeClassVar (isStore : instruction.opcode = .storeClassVar) :
    Proceeds licence machine (storeClassVar instruction) (machine.Misses instruction) anyEnd := by
  apply (proceeds_nameOperand kind).bind
  rintro name _ _ ⟨rfl, isName⟩
  apply (proceeds_owner _).bind
  rintro id _ _ ⟨rfl, isOwner⟩
  apply proceeds_peek.bind
  rintro value _ _ rfl
  apply proceeds_get_bind
  split
  · rename_i found
    have inherits :=
      Store.inherits_setOwnClassVar (Store.class?_of_classVarOwner? found) name value
    exact proceeds_modify (.quiet (.ofStore inherits)) trivial
  · rename_i undeclared
    exact proceeds_throw_amiss (misses_classVar (Or.inr isStore) isName isOwner undeclared)

theorem proceeds_loadGlobal :
    Proceeds licence machine (loadGlobal instruction) (machine.Misses instruction) anyEnd := by
  apply (proceeds_nameOperand kind).bind
  rintro name _ _ ⟨rfl, _⟩
  apply proceeds_get_bind
  split
  · exact proceeds_push _
  · exact proceeds_throw rfl

theorem proceeds_storeGlobal {current : Frame} {rest : List Frame}
    (isStore : instruction.opcode = .storeGlobal) (frames : machine.frames = current :: rest)
    (member : instruction ∈ current.code.code.toList) :
    Proceeds licence machine (storeGlobal instruction) (machine.Misses instruction) anyEnd := by
  apply (proceeds_nameOperand kind).bind
  rintro name _ _ ⟨rfl, _, _, sameFrames, isSelected⟩
  rw [frames] at sameFrames
  cases sameFrames
  apply proceeds_peek.bind
  rintro value _ _ rfl
  exact proceeds_modify (.assign value frames member isStore isSelected) trivial

end Named

/-! ## Activations -/

theorem proceeds_checkDepth :
    Proceeds licence machine checkDepth amiss fun _ reached =>
      machine = reached ∧ machine.frames.length < machine.config.maxFrames := by
  apply proceeds_get_bind
  split
  · exact proceeds_throw rfl
  · rename_i notDeep
    exact proceeds_pure ⟨rfl, Nat.lt_of_not_le notDeep⟩

theorem proceeds_enter {outer : Option ContextId} {locals : List Value}
    {build : ContextId → FrameId → Frame} (hasRoom : machine.HasRoom)
    (notDeep : machine.frames.length < machine.config.maxFrames)
    (inContext : ∀ context id, (build context id).context = context)
    (atStart : ∀ context, machine.AtStart (build context ⟨machine.lastFrame + 1⟩))
    (runs : ∀ context,
      machine.Runs licence (build context ⟨machine.lastFrame + 1⟩) locals.length outer) :
    Proceeds licence machine (do enter (build (← newContext outer locals))) amiss anyEnd :=
  .ok (.single (.call locals.toArray hasRoom notDeep (atStart _) (runs _) (inContext _ _))) trivial

theorem proceeds_callMethod {receiver : Value} {start ownerId : ObjectId}
    {definition : ClassObject} {method : MethodDescriptor} {classSide : Bool} {selector : Selector}
    {arguments : List Value} (fits : selector.arity = arguments.length) (hasRoom : machine.HasRoom)
    (seeks : Machine.Seeks licence machine.store machine.frames receiver classSide start)
    (found : machine.store.lookup classSide selector start =
      some (ownerId, definition, method)) :
    Proceeds licence machine (callMethod receiver ownerId definition method classSide arguments)
      amiss anyEnd := by
  apply proceeds_checkDepth.bind
  rintro _ _ _ ⟨rfl, notDeep⟩
  exact proceeds_enter hasRoom notDeep (fun _ _ => rfl) (fun _ => ⟨rfl, rfl, rfl⟩)
    fun _ => .method seeks found rfl rfl rfl rfl rfl fits

theorem proceeds_callBlock {block : BlockRef} (arguments : List Value) (loop : Option Iteration)
    (hasRoom : machine.HasRoom)
    (present : machine.store.get? block.id = some (.block block.closure)) :
    Proceeds licence machine (callBlock block arguments loop) amiss anyEnd := by
  unfold callBlock
  dsimp only
  split
  · exact proceeds_throw_bind rfl
  · rename_i fits
    apply proceeds_checkDepth.bind
    rintro _ _ _ ⟨rfl, notDeep⟩
    exact proceeds_enter hasRoom notDeep (fun _ _ => rfl) (fun _ => ⟨rfl, rfl, rfl⟩)
      fun _ => .block present rfl rfl ⟨rfl, rfl, rfl, rfl⟩ (of_not_not fits).symm

theorem proceeds_write (text : String) :
    Proceeds licence machine (write text) amiss anyEnd := by
  apply proceeds_get_bind
  dsimp only
  split
  · split
    · exact proceeds_throw rfl
    · exact proceeds_pure trivial
  · exact proceeds_modify (.quiet .ofOutput) trivial

/-! ## Messages -/

/-- A block that is called lies in the store. -/
def Present (store : Store) : Action → Prop
  | .call block _ _ => store.get? block.id = some (.block block.closure)
  | .answer _ | .write .. => True

theorem proceeds_perform {action : Action} (hasRoom : machine.HasRoom)
    (present : Present machine.store action) :
    Proceeds licence machine (perform action) amiss anyEnd := by
  cases action with
  | answer value =>
      exact proceeds_pushTracked value
  | call block arguments loop =>
      exact proceeds_callBlock arguments loop hasRoom present
  | write text value =>
      exact (proceeds_write text).bind fun _ _ => proceeds_pushTracked value

/-- Built-in responses create no code, and they call only blocks that the machine has. -/
theorem proceeds_respond {link : Link} {effect : Effect Action} (hasRoom : machine.HasRoom)
    (effects : Effect.Agrees link machine.store machine.store effect effect Link.Actions) :
    Proceeds licence machine (do perform (← onStore effect)) amiss anyEnd := by
  change Proceeded licence machine amiss anyEnd (EStateM.bind (onStore effect) perform machine)
  unfold EStateM.bind onStore
  unfold Effect.Agrees at effects
  cases outcome : effect machine.store with
  | ok action store =>
      rw [outcome] at effects
      cases effects with
      | ok reached actions =>
          have move : machine.Move licence { machine with store } :=
            .quiet (.ofStore reached.inherits)
          refine Proceeded.after (.single move)
            (proceeds_perform ⟨hasRoom.running, hasRoom.room⟩ ?_)
          cases action with
          | answer _ | write _ _ =>
              trivial
          | call block arguments loop =>
              cases actions with
              | call blocks _ _ =>
                  exact (reached.stores.closures blocks).1
  | error cause store =>
      rw [outcome] at effects
      cases effects with
      | error reached external =>
          refine .error (.single (.quiet (.ofStore reached.inherits)))
            fun invalid => ?_
          rw [(Cause.isOfMessage_iff.mp external).2.1] at invalid
          cases invalid

theorem proceeds_checkArgumentCount (selector : Selector) (given : Nat) :
    Proceeds licence machine (checkArgumentCount selector given) amiss fun _ reached =>
      machine = reached ∧ selector.arity = given := by
  unfold checkArgumentCount
  split
  · exact proceeds_throw rfl
  · rename_i fits
    exact proceeds_pure ⟨rfl, of_not_not fits⟩

section Messages

variable {link : Link} {receiver : Value} {arguments : List Value}
  (machines : link.Machines machine machine) (knownReceiver : link.Knows receiver)
  (known : ∀ value ∈ arguments, link.Knows value) (hasRoom : machine.HasRoom)
include machines knownReceiver known hasRoom

theorem proceeds_respondUniversally (selector : Selector) :
    Proceeds licence machine (respondUniversally receiver selector arguments) amiss anyEnd := by
  apply proceeds_get_bind
  have responses := responses_universal machines.stores knownReceiver selector
  dsimp only
  cases found : machine.store.universalResponse? receiver selector with
  | none =>
      exact proceeds_throw rfl
  | some response =>
      rw [found] at responses
      cases responses with
      | some effects =>
          exact proceeds_respond hasRoom (effects known)

theorem proceeds_send (selector : Selector) :
    Proceeds licence machine (send receiver selector arguments) amiss anyEnd := by
  apply (proceeds_checkArgumentCount selector _).bind
  rintro _ _ _ ⟨rfl, fits⟩
  apply proceeds_get_bind
  have responses := responses_builtin machines.stores knownReceiver selector
  dsimp only
  generalize machine.store.builtinResponse? receiver selector = response at responses ⊢
  cases responses with
  | some effects =>
      exact proceeds_respond hasRoom (effects known)
  | none =>
      dsimp only
      cases found : machine.store.method? receiver selector with
      | none =>
          exact proceeds_respondUniversally machines knownReceiver known hasRoom selector
      | some entry =>
          obtain ⟨ownerId, definition, method, classSide⟩ := entry
          have lookedUp : ∃ start,
              Machine.Seeks licence machine.store machine.frames receiver classSide start ∧
              machine.store.lookup classSide selector start =
                some (ownerId, definition, method) := by
            unfold Store.method? at found
            cases seen : machine.store.see receiver with
            | record _ start _ | classObject start _ =>
                simp only [seen] at found
                obtain ⟨_, isFound, same⟩ := Option.map_eq_some_iff.mp found
                cases same
                first
                | exact ⟨start, .record seen, isFound⟩
                | exact ⟨start, .classObject seen, isFound⟩
            | _ =>
                simp only [seen] at found
                cases found
          obtain ⟨start, seeks, isFound⟩ := lookedUp
          exact proceeds_callMethod fits hasRoom seeks isFound

theorem proceeds_superSend (selector : Selector)
    (own : ¬ licence.classes → ∀ current rest, machine.frames = current :: rest →
      receiver = current.receiver) :
    Proceeds licence machine (superSend receiver selector arguments) amiss anyEnd := by
  apply (proceeds_checkArgumentCount selector _).bind
  rintro _ _ _ ⟨rfl, fits⟩
  refine proceeds_frame_bind fun current rest frames => ?_
  apply (proceeds_owner .superSend).bind
  rintro id _ _ ⟨rfl, _, _, sameFrames, isOwner⟩
  rw [frames] at sameFrames
  cases sameFrames
  apply proceeds_get_bind
  split
  · rename_i ownerId definition method found
    obtain ⟨lower, isLower, inParent⟩ := Option.bind_eq_some_iff.mp found
    obtain ⟨above, isAbove, isFound⟩ := Option.bind_eq_some_iff.mp inParent
    exact proceeds_callMethod fits hasRoom
      (.above frames isOwner isLower isAbove fun isPlain => own isPlain current rest frames) isFound
  · exact proceeds_respondUniversally machines knownReceiver known hasRoom selector

end Messages

theorem proceeds_takeMessage {instruction : Instruction}
    (kind : instruction.opcode.operandKind = .send) :
    Proceeds licence machine (takeMessage instruction) (machine.Misses instruction)
      fun answer reached => machine.Took ((Instruction.unpack instruction.operand).2 + 1) reached ∧
        machine.operands[(Instruction.unpack instruction.operand).2]? = some answer.1 := by
  unfold takeMessage
  dsimp only
  refine proceeds_constantAt?_bind fun current rest frames => ?_
  split
  · apply (proceeds_popMany _).bind
    intro arguments reached _ tookArguments
    apply proceeds_pop.bind
    rintro receiver last _ ⟨tookReceiver, isReceiver⟩
    rw [tookArguments.operands, List.getElem?_drop] at isReceiver
    exact proceeds_pure ⟨tookArguments.trans tookReceiver, isReceiver⟩
  · rename_i other
    refine proceeds_throw_amiss ⟨current, rest, frames, ?_⟩
    simp only [Instruction.Lacks, Instruction.Misses, kind]
    exact other

/-! ## Objects -/

theorem proceeds_pushConstant {instruction : Instruction}
    (kind : instruction.opcode.operandKind = .constant) :
    Proceeds licence machine (pushConstant instruction) (machine.Misses instruction) anyEnd := by
  refine proceeds_constantAt?_bind fun current rest frames => ?_
  have misses : (∀ constant, Instruction.selected current.code.constants instruction.operand =
      some constant → constant.kindName = "bytecode" ∨ constant.kindName = "class descriptor") →
      machine.Misses instruction (.invalidOperand .pushConstant instruction.operand) := by
    intro missing
    refine ⟨current, rest, frames, ?_⟩
    simp only [Instruction.Lacks, Instruction.Misses, kind]
    exact missing
  cases isSelected : (operandIndex? instruction.operand).bind fun index =>
      current.code.constants[index]? with
  | none =>
      refine proceeds_throw_amiss (misses ?_)
      intro _ same
      cases isSelected.symm.trans same
  | some constant =>
      cases constant with
      | int _ | float _ | string _ | bool _ | nil =>
          exact proceeds_push _
      | block _ =>
          refine proceeds_throw_amiss (misses ?_)
          intro _ same
          cases isSelected.symm.trans same
          exact Or.inl rfl
      | classDescriptor _ =>
          refine proceeds_throw_amiss (misses ?_)
          intro _ same
          cases isSelected.symm.trans same
          exact Or.inr rfl

theorem proceeds_newInstance : Proceeds licence machine newInstance amiss anyEnd := by
  apply proceeds_pop.bind
  intro value reached _ _
  apply proceeds_get_bind
  dsimp only
  split
  · rename_i seen
    have isClass := Store.class?_of_get? (Store.of_see_classObject seen).2
    exact proceeds_modify_bind (.quiet (.ofStore (Store.inherits_newRecord isClass)))
      (proceeds_pushTracked _)
  · exact proceeds_throw rfl

theorem proceeds_superclassOf (descriptor : ClassDescriptor) :
    Proceeds licence machine (superclassOf descriptor) amiss fun superclass reached =>
      machine = reached ∧ ∀ parent, superclass = some parent →
        ∃ above, machine.store.class? parent = some above := by
  unfold superclassOf
  split
  · refine proceeds_pure ⟨rfl, ?_⟩
    intro parent isParent
    cases isParent
  · apply proceeds_get_bind
    split
    · rename_i found
      refine proceeds_pure ⟨rfl, ?_⟩
      intro parent isParent
      cases isParent
      exact (Globals.of_class? found).2
    · exact proceeds_throw rfl

theorem mem_of_selected {constants : List Constant} {operand : Int32} {constant : Constant}
    (found : Instruction.selected constants operand = some constant) : constant ∈ constants := by
  obtain ⟨index, _, atIndex⟩ := Option.bind_eq_some_iff.mp found
  exact List.mem_of_getElem? atIndex

theorem proceeds_defineClass {instruction : Instruction} (allowed : licence.classes)
    (kind : instruction.opcode.operandKind = .classDescriptor) :
    Proceeds licence machine (defineClass instruction) (machine.Misses instruction) anyEnd := by
  refine proceeds_constantAt?_bind fun current rest frames => ?_
  have misses : (∀ descriptor, Instruction.selected current.code.constants instruction.operand ≠
      some (.classDescriptor descriptor)) → ∀ opcode,
      machine.Misses instruction (.invalidOperand opcode instruction.operand) := by
    intro missing opcode
    refine ⟨current, rest, frames, ?_⟩
    simp only [Instruction.Lacks, Instruction.Misses, kind]
    exact missing
  split
  · rename_i descriptor isSelected
    apply (proceeds_superclassOf descriptor).bind
    rintro superclass _ _ ⟨rfl, isThere⟩
    apply proceeds_get_bind
    exact proceeds_modify_bind
      (.makeClass superclass _ allowed frames (mem_of_selected isSelected) isThere)
      (proceeds_pushTracked _)
  · rename_i other notDescriptor isSelected
    refine proceeds_throw_amiss (misses (fun descriptor same => ?_) _)
    exact notDescriptor descriptor (Option.some.inj (isSelected.symm.trans same))
  · rename_i isSelected
    refine proceeds_throw_amiss (misses (fun descriptor same => ?_) _)
    cases isSelected.symm.trans same

theorem proceeds_makeClosure {instruction : Instruction} (allowed : licence.blocks)
    (kind : instruction.opcode.operandKind = .closure) :
    Proceeds licence machine (makeClosure instruction) (machine.Misses instruction) anyEnd := by
  unfold makeClosure
  dsimp only
  refine proceeds_constantAt?_bind fun current rest frames => ?_
  split
  · rename_i body found
    refine proceeds_frame_bind fun same others sameFrames => ?_
    rw [frames] at sameFrames
    cases sameFrames
    apply proceeds_get_bind
    refine proceeds_modify_bind (.makeBlock allowed frames ?_ ⟨rfl, rfl, rfl, rfl⟩)
      (proceeds_pushTracked _)
    exact List.mem_of_getElem? found
  · rename_i other
    refine proceeds_throw_amiss ⟨current, rest, frames, ?_⟩
    simp only [Instruction.Lacks, Instruction.Misses, kind]
    exact other

theorem proceeds_makeArray (count : Nat) :
    Proceeds licence machine (makeArray count) amiss anyEnd := by
  apply (proceeds_popMany count).bind
  intro items reached _ _
  exact proceeds_get_bind (proceeds_modify_bind
    (.quiet (.ofStore (Store.inherits_alloc reached.store rfl trivial)))
    (proceeds_pushTracked _))

theorem proceeds_makeDictionary (count : Nat) :
    Proceeds licence machine (makeDictionary count) amiss anyEnd := by
  apply (proceeds_popMany (2 * count)).bind
  intro items reached _ _
  refine proceeds_settle_bind fun entries => ?_
  exact proceeds_get_bind (proceeds_modify_bind
    (.quiet (.ofStore (Store.inherits_alloc reached.store rfl trivial)))
    (proceeds_pushTracked _))

/-! ## Returns and jumps -/

theorem proceeds_andGoOn {x : Exec Unit} (proceeds : Proceeds licence machine x amiss anyEnd) :
    Proceeds licence machine (andGoOn x) amiss anyEnd :=
  proceeds.bind fun _ _ => proceeds_pure trivial

theorem proceeds_complete {link : Link} {value : Value} (bounded : machine.Bounded)
    (machines : link.Machines machine machine) (known : link.Knows value) :
    Proceeds licence machine (complete value) amiss anyEnd := by
  apply proceeds_get_bind
  cases frames : machine.frames with
  | nil =>
      exact proceeds_throw rfl
  | cons done rest =>
      have linkedFrames := machines.frames
      rw [frames] at linkedFrames
      obtain ⟨innermost, below⟩ := List.forall₂_cons.mp linkedFrames
      have popped := machines.withFrames below
      have suffix : rest <:+ machine.frames := frames ▸ List.suffix_cons done rest
      refine proceeds_modify_bind (.leave suffix) ?_
      cases rest with
      | nil =>
          exact proceeds_modify_bind (.quiet (.ofResult rfl)) (proceeds_pure trivial)
      | cons next further =>
          have hasRoom := bounded.hasRoom_below frames (List.cons_ne_nil next further)
          have pending := innermost.loop
          cases loop : done.loop with
          | none =>
              exact proceeds_andGoOn (proceeds_push value)
          | some iteration =>
              rw [loop] at pending
              cases pending with
              | some loops =>
                  change Proceeds licence _ (onStore (iteration.resume value) >>= fun action =>
                    perform action >>= fun _ =>
                      (pure StepState.running : Exec StepState)) amiss anyEnd
                  rw [← bind_assoc]
                  exact proceeds_andGoOn (proceeds_respond hasRoom
                    (agrees_resume popped.stores loops known))

theorem unwind?_cases (home : FrameId) (frames : List Frame) :
    (unwind? home frames = none ∧ ∀ frame ∈ frames, frame.id ≠ home) ∨
      ∃ above frame below, frames = above ++ frame :: below ∧ frame.id = home ∧
        unwind? home frames = some (frame :: below) := by
  induction frames with
  | nil =>
      exact Or.inl ⟨rfl, List.forall_mem_nil _⟩
  | cons frame rest inductionHypothesis =>
      unfold unwind?
      by_cases found : frame.id = home
      · rw [if_pos found]
        exact Or.inr ⟨[], frame, rest, rfl, found, rfl⟩
      · rw [if_neg found]
        rcases inductionHypothesis with
          ⟨expired, others⟩ | ⟨above, isHome, below, whole, same, ended⟩
        · exact Or.inl ⟨expired, List.forall_mem_cons.mpr ⟨found, others⟩⟩
        · exact Or.inr ⟨frame :: above, isHome, below, whole ▸ rfl, same, ended⟩

theorem unwind?_suffix {home : FrameId} {frames found : List Frame}
    (unwound : unwind? home frames = some found) : found <:+ frames := by
  rcases unwind?_cases home frames with ⟨expired, _⟩ | ⟨above, frame, below, whole, _, isFound⟩
  · rw [expired] at unwound
    cases unwound
  · rw [isFound] at unwound
    cases unwound
    exact ⟨above, whole.symm⟩

theorem proceeds_returnFromHome {link : Link} {value : Value} (bounded : machine.Bounded)
    (machines : link.Machines machine machine) (known : link.Knows value) :
    Proceeds licence machine (returnFromHome value) amiss anyEnd := by
  refine proceeds_frame_bind fun current rest _ => ?_
  dsimp only
  split
  · apply proceeds_get_bind
    rcases unwind?_self current.home machines.frames with expired |
      ⟨found, unwound, linkedFrames⟩
    · rw [expired]
      exact proceeds_throw_bind rfl
    · rw [unwound]
      have suffix := unwind?_suffix unwound
      exact proceeds_modify_bind (.leave suffix)
        (proceeds_complete (bounded.suffix suffix) (machines.withFrames linkedFrames) known)
  · exact proceeds_complete bounded machines known

theorem proceeds_jump {instruction : Instruction} {current : Frame} {rest : List Frame}
    (frames : machine.frames = current :: rest)
    (member : instruction ∈ current.code.code.toList)
    (kind : instruction.opcode.operandKind = .target) :
    Proceeds licence machine (jump instruction.operand) amiss anyEnd :=
  (proceeds_modifyFrame frames (.jump frames member kind)).mono fun _ => trivial

theorem proceeds_jumpIfFalse {instruction : Instruction} {current : Frame} {rest : List Frame}
    (frames : machine.frames = current :: rest)
    (member : instruction ∈ current.code.code.toList)
    (kind : instruction.opcode.operandKind = .target) :
    Proceeds licence machine (jumpIfFalse instruction.operand) amiss anyEnd := by
  apply proceeds_pop.bind
  rintro value _ _ ⟨⟨same, others, sameFrames, _, rfl⟩, _⟩
  rw [frames] at sameFrames
  cases sameFrames
  split
  · exact proceeds_jump rfl member kind
  · exact proceeds_pure trivial
  · exact proceeds_get_bind (proceeds_throw rfl)

/-! ## Instructions -/

theorem proceeds_execute {link : Link} {instruction : Instruction} {current : Frame}
    {rest : List Frame} (frames : machine.frames = current :: rest)
    (member : instruction ∈ current.code.code.toList)
    (permits : licence.Permits instruction current)
    (bounded : machine.Bounded) (machines : link.Machines machine machine) :
    Proceeds licence machine (execute instruction) (machine.Misses instruction) anyEnd := by
  obtain ⟨opcode, operand⟩ := instruction
  cases opcode with
  | pushConstant =>
      exact proceeds_andGoOn (proceeds_pushConstant rfl)
  | pop =>
      exact proceeds_andGoOn (proceeds_pop.bind fun _ _ => proceeds_pure trivial)
  | dup =>
      exact proceeds_andGoOn (proceeds_peek.bind fun _ _ => proceeds_push _)
  | loadLocal =>
      exact proceeds_andGoOn (proceeds_frame_bind fun _ _ _ => proceeds_loadSlot _ _)
  | storeLocal =>
      refine proceeds_andGoOn (proceeds_peek.bind fun _ _ => ?_)
      exact proceeds_frame_bind fun _ _ _ => proceeds_storeSlot (permits.stores rfl) _ _ _
  | loadOuter =>
      refine proceeds_andGoOn ((proceeds_outerSlot rfl).bind ?_)
      rintro ⟨context, slot⟩ _ _ _
      exact proceeds_loadSlot context slot
  | storeOuter =>
      refine proceeds_andGoOn ((proceeds_outerSlot rfl).bind ?_)
      rintro ⟨context, slot⟩ _ _ _
      exact proceeds_peek.bind fun _ _ => proceeds_storeSlot (permits.stores rfl) context slot _
  | loadField =>
      exact proceeds_andGoOn (@proceeds_loadField _ _ ⟨.loadField, operand⟩ rfl)
  | storeField =>
      exact proceeds_andGoOn (@proceeds_storeField _ _ ⟨.storeField, operand⟩ rfl)
  | loadClassVar =>
      exact proceeds_andGoOn (proceeds_loadClassVar rfl rfl)
  | storeClassVar =>
      exact proceeds_andGoOn (proceeds_storeClassVar rfl rfl)
  | loadGlobal =>
      exact proceeds_andGoOn (proceeds_loadGlobal rfl)
  | storeGlobal =>
      exact proceeds_andGoOn (proceeds_storeGlobal rfl rfl frames member)
  | send =>
      refine proceeds_andGoOn ((proceeds_takeMessage rfl).bind ?_)
      rintro ⟨receiver, selector, arguments⟩ reached taken ⟨took, _⟩
      obtain ⟨later, laterMachines, _, knownReceiver, known⟩ :=
        (agrees_takeMessage_self _ machines).of_ok taken
      exact proceeds_send laterMachines knownReceiver known (took.hasRoom bounded) selector
  | superSend =>
      refine proceeds_andGoOn ((proceeds_takeMessage rfl).bind ?_)
      rintro ⟨receiver, selector, arguments⟩ reached taken ⟨took, isReceiver⟩
      obtain ⟨later, laterMachines, _, knownReceiver, known⟩ :=
        (agrees_takeMessage_self _ machines).of_ok taken
      refine proceeds_superSend laterMachines knownReceiver known (took.hasRoom bounded) selector ?_
      intro holds later others laterFrames
      have own := (permits.classes holds).ownReceiver rfl
      rw [Machine.operands, frames] at isReceiver
      obtain ⟨_, _, sameFrames, _, rfl⟩ := took
      rw [frames] at sameFrames
      cases sameFrames
      cases laterFrames
      exact Option.some.inj (isReceiver.symm.trans own)
  | jump =>
      exact proceeds_andGoOn (proceeds_jump frames member rfl)
  | jumpIfFalse =>
      exact proceeds_andGoOn (proceeds_jumpIfFalse frames member rfl)
  | pushSelf =>
      exact proceeds_andGoOn (proceeds_frame_bind fun _ _ _ => proceeds_push _)
  | pushNil | pushTrue | pushFalse =>
      exact proceeds_andGoOn (proceeds_push _)
  | newInstance =>
      exact proceeds_andGoOn proceeds_newInstance
  | defineClass =>
      have allowed : licence.classes := Classical.byContradiction fun refused =>
        (permits.classes refused).notDefinition rfl
      exact proceeds_andGoOn (proceeds_defineClass allowed rfl)
  | makeClosure =>
      exact proceeds_andGoOn (proceeds_makeClosure (permits.blocks rfl) rfl)
  | makeArray =>
      exact proceeds_andGoOn (proceeds_makeArray _)
  | makeDictionary =>
      exact proceeds_andGoOn (proceeds_makeDictionary _)
  | «return» =>
      apply proceeds_pop.bind
      rintro value reached popped ⟨took, _⟩
      obtain ⟨later, laterMachines, _, known⟩ := (agrees_pop machines).of_ok popped
      exact proceeds_complete (took.hasRoom bounded).bounded laterMachines known
  | nonLocalReturn =>
      apply proceeds_pop.bind
      rintro value reached popped ⟨took, _⟩
      obtain ⟨later, laterMachines, _, known⟩ := (agrees_pop machines).of_ok popped
      exact proceeds_returnFromHome (took.hasRoom bounded).bounded laterMachines known

end Exec

/-! ## Steps -/

namespace Machine

/-- The next instruction defines no class, and where it sends a message to `super` the receiver of
the message is that of the running method. -/
def Plain (machine : Machine) : Prop :=
  ∀ current rest instruction, machine.frames = current :: rest →
    current.code.code[current.ip]? = some instruction → instruction.Plain current

/-- The next instruction does only what is allowed. -/
def Obeys (machine : Machine) (licence : Licence) : Prop :=
  ∀ current rest instruction, machine.frames = current :: rest →
    current.code.code[current.ip]? = some instruction → licence.Permits instruction current

theorem obeys_any (machine : Machine) : machine.Obeys .any :=
  fun _ _ _ _ _ => ⟨fun _ => trivial, fun refused => (refused trivial).elim, fun _ => trivial⟩

theorem obeys_running (machine : Machine) : machine.Obeys .running :=
  fun _ _ _ _ _ => ⟨fun _ => trivial, fun refused => (refused trivial).elim, fun _ => trivial⟩

theorem Plain.obeys {machine : Machine} (plain : machine.Plain) : machine.Obeys .plain :=
  fun current rest instruction frames next =>
    ⟨fun _ => trivial, fun _ => plain current rest instruction frames next, fun _ => trivial⟩

/-- The operand of the next instruction does not select what the instruction needs: it fails for the
cause. -/
def Lacks (machine : Machine) (cause : Cause) : Prop :=
  ∃ current rest instruction, machine.frames = current :: rest ∧
    current.code.code[current.ip]? = some instruction ∧
    instruction.Lacks machine.store machine.contexts current cause

end Machine

namespace Exec

variable {licence : Licence} {machine : Machine}

theorem proceeds_instructionStep {link : Link} (obeys : machine.Obeys licence)
    (bounded : machine.Bounded) (isSame : link.pairing = .same)
    (machines : link.Machines machine machine) :
    Proceeds licence machine instructionStep machine.Lacks anyEnd := by
  refine proceeds_frame_bind fun current rest frames => ?_
  cases next : current.code.code[current.ip]? with
  | none =>
      have innermost := (List.forall₂_cons.mp (frames ▸ machines.frames)).1
      exact proceeds_complete bounded machines (knows_headD innermost.stack)
  | some instruction =>
      obtain ⟨inside, isInstruction⟩ := Array.getElem?_eq_some_iff.mp next
      let advancedFrame : Frame := { current with ip := current.ip + 1 }
      have member : instruction ∈ advancedFrame.code.code.toList :=
        isInstruction ▸ Array.getElem_mem_toList inside
      have permits := obeys current rest instruction frames next
      have move : machine.Move licence _ :=
        .advance frames next fun refused => (permits.classes refused).notDefinition
      refine (proceeds_modifyFrame frames move).bind fun advanced isReached => ?_
      subst isReached
      obtain ⟨later, laterMachines, _⟩ :=
        (agrees_advanceFrame_of_same isSame machines).of_ok advanced
      have stillPermits : licence.Permits instruction advancedFrame :=
        ⟨permits.blocks, fun refused =>
          ⟨(permits.classes refused).notDefinition, (permits.classes refused).ownReceiver⟩,
          permits.stores⟩
      have executes := proceeds_execute rfl member stillPermits (move.bounded bounded) laterMachines
      refine executes.reword ?_
      rintro cause ⟨_, _, sameFrames, lacks⟩
      cases sameFrames
      refine ⟨current, rest, instruction, frames, next, ?_⟩
      cases cause <;> exact lacks

end Exec

namespace Machine

variable {licence : Licence} {machine : Machine}

theorem quiet_collectContexts (machine : Machine) : Quiet machine machine.collectContexts :=
  ⟨rfl, rfl, rfl, rfl, rfl, rfl, Nat.le_refl _, .refl _, Arena.retains_collect _ _ _,
    fun wellFormed => wellFormed.collect, fun _ => rfl⟩

theorem quiet_collectGarbage (machine : Machine) : Quiet machine machine.collectGarbage :=
  machine.quiet_collectContexts.trans
    ⟨rfl, rfl, rfl, rfl, rfl, rfl, Nat.le_refl _, Store.inherits_collect _ _, .refl _, id,
      fun _ => rfl⟩

theorem quiet_tidied (machine : Machine) : Quiet machine machine.tidied := by
  have unchanged : Quiet machine machine := .ofOutput
  unfold tidied
  dsimp only
  split
  · split
    · exact machine.quiet_collectContexts.trans (quiet_collectGarbage _)
    · exact machine.quiet_collectContexts
  · split
    · exact machine.quiet_collectGarbage
    · exact unchanged

/-- What happens in a step before its instruction is executed. -/
theorem quiet_counted_tidied (machine : Machine) :
    Quiet machine ({ machine with steps := machine.steps + 1 } : Machine).tidied :=
  (Quiet.counted machine).trans (quiet_tidied _)

theorem moves_tidied (machine : Machine) : machine.Moves licence machine.tidied :=
  .single (.quiet machine.quiet_tidied)

theorem Bounded.tidied (bounded : machine.Bounded) : machine.tidied.Bounded :=
  (machine.moves_tidied : machine.Moves .any _).keep (fun move => move.bounded) bounded

/-- A context that is there after collections was there before. -/
theorem get?_of_get?_tidied {id : ContextId} {context : Context}
    (found : machine.tidied.contexts.get? id = some context) :
    machine.contexts.get? id = some context := by
  have ofCollected : ∀ {start : Machine}, start.collectContexts.contexts.get? id = some context →
      start.contexts.get? id = some context := fun kept => Arena.get?_of_get?_collect kept
  unfold tidied at found
  dsimp only at found
  split at found
  · split at found
    · exact ofCollected (ofCollected found)
    · exact ofCollected found
  · split at found
    · exact ofCollected found
    · exact found

/-- The contexts around a context end before the depth is reached. -/
theorem resolve?_of_tidied {id : ContextId} {depth : Nat} {target : Option ContextId}
    (resolved : machine.tidied.contexts.resolve? id depth = some target) :
    machine.contexts.resolve? id depth = some target := by
  induction depth generalizing id with
  | zero =>
      exact resolved
  | succ depth inductionHypothesis =>
      unfold Arena.resolve? at resolved ⊢
      obtain ⟨context, found, further⟩ := Option.bind_eq_some_iff.mp resolved
      rw [get?_of_get?_tidied found]
      cases isOuter : context.outer with
      | none =>
          simpa [isOuter] using further
      | some outer =>
          simp only [isOuter] at further
          simpa [isOuter] using inductionHypothesis further

/-- The operand of the next instruction does not select what the instruction needs. -/
def Amiss (machine : Machine) : Prop :=
  ∃ current rest instruction, machine.frames = current :: rest ∧
    current.code.code[current.ip]? = some instruction ∧
    instruction.Misses current.code.constants machine.contexts current.context

theorem Amiss.of_tidied (amiss : machine.tidied.Amiss) : machine.Amiss := by
  obtain ⟨current, rest, instruction, frames, next, misses⟩ := amiss
  rw [frames_tidied] at frames
  refine ⟨current, rest, instruction, frames, next, ?_⟩
  unfold Instruction.Misses at misses ⊢
  dsimp only at misses ⊢
  cases kind : instruction.opcode.operandKind with
  | outer =>
      simp only [kind] at misses
      exact resolve?_of_tidied misses
  | constant | name | send | classDescriptor | closure =>
      simpa only [kind] using misses
  | none | slot | field | count | target =>
      simp only [kind] at misses

end Machine

namespace Exec

variable {licence : Licence} {machine : Machine}

theorem proceeds_countStep {amiss : Cause → Prop} :
    Proceeds licence machine countStep amiss
      fun _ reached => reached = { machine with steps := machine.steps + 1 } := by
  refine proceeds_modify_bind (.quiet (.counted machine)) (proceeds_get_bind ?_)
  split
  · split
    · exact proceeds_throw rfl
    · exact proceeds_pure rfl
  · exact proceeds_pure rfl

/-- A step that fails because of an operand lacks something when it has counted and collected. -/
theorem proceeds_step (alike : machine.Alike machine) (bounded : machine.Bounded)
    (obeys : machine.Obeys licence) :
    Proceeds licence machine step
      ({ machine with steps := machine.steps + 1 } : Machine).tidied.Lacks anyEnd := by
  rw [step_eq]
  apply proceeds_countStep.bind
  intro _ counted _ isCounted
  obtain ⟨link, isSame, machines⟩ := alike.counted_tidied
  have boundedCounted : counted.Bounded := by
    rw [isCounted]
    exact ⟨bounded.limited, bounded.waiting⟩
  have obeysTidied : counted.tidied.Obeys licence := by
    intro current rest instruction frames
    rw [Machine.frames_tidied, isCounted] at frames
    exact obeys current rest instruction frames
  rw [← isCounted]
  exact Proceeded.after counted.moves_tidied
    (proceeds_instructionStep obeysTidied boundedCounted.tidied isSame (isCounted ▸ machines))

end Exec

/-! ## Commands -/

/-- What the command asks for is allowed. -/
def Licence.Allows (licence : Licence) : Command → Prop
  | .load _ => licence.programs
  | .loadInSession _ => licence.session
  | .step => licence.blocks ∧ licence.classes ∧ licence.stores
  | .collect => True

theorem Licence.allows_any (command : Command) : Licence.any.Allows command := by
  cases command with
  | load _ | loadInSession _ | collect =>
      trivial
  | step =>
      exact ⟨trivial, trivial, trivial⟩

namespace Machine

variable {licence : Licence} {machine : Machine}

/-- A step consists of moves.  It fails because of an operand only where the operand does not select
what the instruction needs, in a machine that differs from the one before at most by collections. -/
theorem moves_step_of (alike : machine.Alike machine) (bounded : machine.Bounded)
    (obeys : machine.Obeys licence) :
    machine.Moves licence machine.step.1 ∧
      ∀ fault, machine.step.2 = .error fault → fault.cause.isOfOperand = true →
        ({ machine with steps := machine.steps + 1 } : Machine).tidied.Lacks fault.cause := by
  have proceeds := Exec.proceeds_step alike bounded obeys
  unfold Machine.step
  split
  · split
    · exact ⟨.refl, nofun⟩
    · refine ⟨.refl, ?_⟩
      rintro _ ⟨⟩ impossible
      cases impossible
  · unfold Exec.Proceeds at proceeds
    generalize Exec.step machine = result at proceeds ⊢
    cases proceeds with
    | ok moves _ =>
        exact ⟨moves, nofun⟩
    | error moves causes =>
        refine ⟨moves, ?_⟩
        rintro _ ⟨⟩ invalid
        exact causes invalid

/-- A step consists of moves.  It reports an invalid operand only where the operand of the next
instruction does not select what the instruction needs. -/
theorem moves_step (alike : machine.Alike machine) (bounded : machine.Bounded) :
    machine.Moves .any machine.step.1 ∧
      ∀ fault, machine.step.2 = .error fault → fault.cause.isInvalidOperand = true →
        machine.Amiss := by
  obtain ⟨moves, causes⟩ := moves_step_of alike bounded machine.obeys_any
  refine ⟨moves, fun fault failed invalid => ?_⟩
  cases isCause : fault.cause with
  | invalidOperand opcode operand =>
      have lacks := causes fault failed (by rw [isCause]; rfl)
      rw [isCause] at lacks
      have amiss : Amiss { machine with steps := machine.steps + 1 } := Amiss.of_tidied lacks
      exact amiss
  | _ =>
      rw [isCause] at invalid
      cases invalid

theorem moves_load (machine : Machine) (code : CodeUnit) (allowed : licence.programs) :
    machine.Moves licence (machine.load code).1 := by
  unfold load
  split
  · exact .refl
  · rename_i verified
    exact .single (.launch verified (.own allowed))

theorem moves_loadInSession (machine : Machine) (code : CodeUnit) (allowed : licence.session) :
    machine.Moves licence (machine.loadInSession code).1 := by
  unfold loadInSession
  split
  · exact .refl
  · rename_i verified
    exact .single (.launch verified (.session allowed))

theorem after_append (machine : Machine) (commands more : List Command) :
    machine.after (commands ++ more) = (machine.after commands).after more :=
  List.foldl_append

theorem moves_obey (alike : machine.Alike machine) (bounded : machine.Bounded)
    {command : Command} (allows : licence.Allows command) :
    machine.Moves licence (machine.obey command).1 := by
  cases command with
  | load code =>
      exact machine.moves_load code allows
  | loadInSession code =>
      exact machine.moves_loadInSession code allows
  | step =>
      obtain ⟨blocks, classes, stores⟩ := allows
      exact (moves_step_of alike bounded fun _ _ _ _ _ =>
        ⟨fun _ => blocks, fun refused => (refused classes).elim, fun _ => stores⟩).1
  | collect =>
      exact .single (.quiet machine.quiet_collectGarbage)

theorem moves_after_of (alike : machine.Alike machine) (bounded : machine.Bounded)
    {commands : List Command} (allows : ∀ command ∈ commands, licence.Allows command) :
    machine.Moves licence (machine.after commands) := by
  induction commands generalizing machine with
  | nil =>
      exact .refl
  | cons command rest inductionHypothesis =>
      obtain ⟨allowsFirst, allowsRest⟩ := List.forall_mem_cons.mp allows
      have first := moves_obey alike bounded allowsFirst
      have alikeNext : (machine.obey command).1.Alike (machine.obey command).1 :=
        alike.after [command]
      have boundedNext := first.keep (fun move => move.bounded) bounded
      exact first.trans (inductionHypothesis alikeNext boundedNext allowsRest)

/-- Whatever is asked of a machine, it gets on by moves. -/
theorem moves_after (alike : machine.Alike machine) (bounded : machine.Bounded)
    (commands : List Command) : machine.Moves .any (machine.after commands) :=
  moves_after_of alike bounded fun command _ => Licence.allows_any command

theorem bounded_new (config : Config) (refusal : Option String) : (new config refusal).Bounded :=
  ⟨by simp [new], by simp [new]⟩

theorem alike_new (config : Config) (refusal : Option String) :
    (new config refusal).Alike (new config refusal) :=
  Alike.new config config.collectionThreshold config.collectionThreshold refusal

/-- What a pending loop calls lies in the store. -/
theorem stored_of_loops {link : Link} {iteration other : Iteration}
    (machines : link.Machines machine machine) (loops : link.Loops iteration other)
    {block : BlockRef} (member : block ∈ iteration.blocks) :
    machine.store.get? block.id = some (.block block.closure) := by
  have ofBlocks : ∀ {block other : BlockRef}, link.Blocks block other →
      machine.store.get? block.id = some (.block block.closure) :=
    fun blocks => (machines.stores.closures blocks).1
  cases loops with
  | whileAlone _ _ condition =>
      cases List.mem_singleton.mp member
      exact ofBlocks condition
  | whileLoop _ _ condition body =>
      rcases List.mem_cons.mp member with rfl | inBody
      · exact ofBlocks condition
      · cases List.mem_singleton.mp inBody
        exact ofBlocks body
  | forever body | times _ body _ | count _ body _ | each body _ _ | eachPair body _ _
  | collect body _ _ | filter _ body _ _ | fold body _ _ | detect body _ _ =>
      cases List.mem_singleton.mp member
      exact ofBlocks body

/-- Every block that exists lies in the store. -/
theorem HasClosure.isStored {closure : Closure} (alike : machine.Alike machine)
    (hasClosure : machine.HasClosure closure) :
    ∃ id, machine.store.get? id = some (.block closure) := by
  cases hasClosure with
  | stored found =>
      exact ⟨_, found⟩
  | @pending frame iteration block isFrame isLoop member =>
      obtain ⟨link, _, machines⟩ := alike
      obtain ⟨partner, linked⟩ := exists_partner machines.frames isFrame
      have pending := linked.loop
      rw [isLoop] at pending
      generalize partner.loop = otherLoop at pending
      cases pending with
      | some loops =>
          exact ⟨block.id, stored_of_loops machines loops member⟩

/-- What holds of a new machine and is kept by every move holds of every machine that commands can
lead to. -/
theorem holds_after {holds : Machine → Prop} (config : Config) (refusal : Option String)
    (initially : holds (new config refusal))
    (keep : ∀ {before after : Machine}, Move .any before after → holds before → holds after)
    (commands : List Command) : holds ((new config refusal).after commands) :=
  (moves_after (alike_new config refusal) (bounded_new config refusal) commands).keep keep initially

theorem bounded_after (config : Config) (refusal : Option String) (commands : List Command) :
    ((new config refusal).after commands).Bounded :=
  holds_after config refusal (bounded_new config refusal) (fun move => move.bounded) commands

theorem alike_after (config : Config) (refusal : Option String) (commands : List Command) :
    ((new config refusal).after commands).Alike ((new config refusal).after commands) :=
  (alike_new config refusal).after commands

end Machine

end Missive
