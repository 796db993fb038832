import Missive.Proofs.Alike.Execution
import Missive.Proofs.Machine.Operands
import Missive.Proofs.Safety.Typing

/-!
# Safe code does not go wrong

Every instruction that fits takes a machine that is ready for it to one that is ready for the next.
Where it fails, the fault is one of the program, and what the machine has to keep is kept.

A stale handle is not excluded here.  That no program meets one is known already, as is that
nothing goes away that the machine holds on to; the link of a machine with itself says so.
-/

namespace Missive

namespace Exec

/-! ## Computations that settle -/

/-- The fault is one of the program, or a stale handle. -/
def Tolerated (cause : Cause) : Prop := cause.isInternal = false ∨ cause = .staleContext

/-- The computation has ended as wanted, or it has failed and done no harm. -/
inductive Settled {α : Type} (good : α → Machine → Prop) : EStateM.Result Cause Machine α → Prop
  | ok {answer : α} {machine : Machine} : good answer machine → Settled good (.ok answer machine)
  | error {cause : Cause} {machine : Machine} : machine.Kept → Tolerated cause →
      Settled good (.error cause machine)

/-- From the machine, the computation ends as wanted, or it fails and does no harm. -/
def Settles {α : Type} (machine : Machine) (x : Exec α) (good : α → Machine → Prop) : Prop :=
  Settled good (x machine)

variable {α β : Type} {machine : Machine} {good : α → Machine → Prop}

theorem settles_pure {a : α} (isGood : good a machine) : Settles machine (pure a) good :=
  .ok isGood

theorem settles_throw {cause : Cause} (kept : machine.Kept) (external : cause.isInternal = false) :
    Settles machine (throw cause) good :=
  .error kept (Or.inl external)

theorem settles_throw_bind {cause : Cause} {f : β → Exec α} (kept : machine.Kept)
    (external : cause.isInternal = false) : Settles machine (throw cause >>= f) good :=
  .error kept (Or.inl external)

theorem Settles.bind {x : Exec α} {f : α → Exec β} {goodLater : β → Machine → Prop}
    (first : Settles machine x good)
    (next : ∀ {a reached}, x machine = .ok a reached → good a reached →
      Settles reached (f a) goodLater) :
    Settles machine (x >>= f) goodLater := by
  change Settled goodLater (EStateM.bind x f machine)
  unfold Settles at first
  unfold EStateM.bind
  cases outcome : x machine with
  | ok a reached =>
      rw [outcome] at first
      cases first with
      | ok isGood =>
          exact next outcome isGood
  | error cause reached =>
      rw [outcome] at first
      cases first with
      | error kept tolerated =>
          exact .error kept tolerated

theorem Settles.mono {x : Exec α} {better : α → Machine → Prop}
    (settles : Settles machine x better)
    (weaker : ∀ {a reached}, better a reached → good a reached) : Settles machine x good := by
  unfold Settles at settles ⊢
  generalize x machine = result at settles ⊢
  cases settles with
  | ok isGood =>
      exact .ok (weaker isGood)
  | error kept tolerated =>
      exact .error kept tolerated

theorem settles_get_bind {f : Machine → Exec α} (next : Settles machine (f machine) good) :
    Settles machine (get >>= f) good :=
  next

theorem settles_modify_bind {change : Machine → Machine} {f : Unit → Exec α}
    (next : Settles (change machine) (f ()) good) : Settles machine (modify change >>= f) good :=
  next

theorem settles_settle_bind {outcome : Store → Except Crash β} {f : β → Exec α}
    (kept : machine.Kept) (next : ∀ result, Settles machine (f result) good) :
    Settles machine ((onStore do settle (outcome (← get))) >>= f) good := by
  unfold Settles
  rw [onStore_settle_bind]
  cases outcome machine.store with
  | ok result =>
      exact next result
  | error crash =>
      exact .error kept (Or.inl rfl)

/-- A computation whose answer is known. -/
theorem settles_bind_of_eq {x : Exec α} {f : α → Exec β} {a : α} {reached : Machine}
    {goodLater : β → Machine → Prop} (answered : x machine = .ok a reached)
    (next : Settles reached (f a) goodLater) : Settles machine (x >>= f) goodLater := by
  change Settled goodLater (EStateM.bind x f machine)
  unfold EStateM.bind
  rw [answered]
  exact next

end Exec

/-! ## Changes of a machine -/

namespace Machine

variable {machine : Machine} {store : Store} {contexts : Arena}

theorem Kept.withStore (kept : machine.Kept) (heap : Heap store machine.contexts) :
    Kept { machine with store } :=
  ⟨heap, kept.session⟩

theorem Kept.withContexts (kept : machine.Kept) (keeps : machine.contexts.Keeps contexts)
    (wellFormed : contexts.WellFormed) : Kept { machine with contexts } :=
  ⟨kept.heap.keeps keeps wellFormed, keeps.issued kept.session⟩

theorem Awaiting.withStore (awaiting : machine.Awaiting)
    (heap : Heap store machine.contexts) (preserves : machine.store.Preserves store) :
    Awaiting { machine with store } :=
  ⟨awaiting.toKept.withStore heap,
    fun frame member => (awaiting.frames frame member).preserves preserves (.refl _)⟩

theorem Awaiting.withContexts (awaiting : machine.Awaiting)
    (keeps : machine.contexts.Keeps contexts) (wellFormed : contexts.WellFormed) :
    Awaiting { machine with contexts } :=
  ⟨awaiting.toKept.withContexts keeps wellFormed,
    fun frame member => (awaiting.frames frame member).preserves (.refl _) keeps⟩

variable {current : Frame} {setting : Setting} {expected held : Layout}

theorem Poised.withStore (poised : machine.Poised current setting expected held)
    (heap : Heap store machine.contexts) (preserves : machine.store.Preserves store) :
    Poised { machine with store } current setting expected held := by
  obtain ⟨rest, frames, awaits⟩ := poised.frames
  exact ⟨poised.toKept.withStore heap,
    ⟨rest, frames, fun frame member => (awaits frame member).preserves preserves (.refl _)⟩,
    poised.current.preserves preserves (.refl _)⟩

theorem Poised.withContexts (poised : machine.Poised current setting expected held)
    (keeps : machine.contexts.Keeps contexts) (wellFormed : contexts.WellFormed) :
    Poised { machine with contexts } current setting expected held := by
  obtain ⟨rest, frames, awaits⟩ := poised.frames
  exact ⟨poised.toKept.withContexts keeps wellFormed,
    ⟨rest, frames, fun frame member => (awaits frame member).preserves (.refl _) keeps⟩,
    poised.current.preserves (.refl _) keeps⟩

/-- An activation that waits for an operand is the innermost one. -/
theorem Poised.awaiting (poised : machine.Poised current setting (false :: held) held) :
    machine.Awaiting ∧ machine.frames ≠ [] := by
  obtain ⟨rest, frames, awaits⟩ := poised.frames
  refine ⟨⟨poised.toKept, ?_⟩, ?_⟩
  · rw [frames]
    exact List.forall_mem_cons.mpr ⟨⟨setting, held, poised.current⟩, awaits⟩
  · rw [frames]
    exact List.cons_ne_nil _ _

theorem Awaiting.poised (awaiting : machine.Awaiting) (running : machine.frames ≠ []) :
    ∃ current setting held, machine.Poised current setting (false :: held) held := by
  obtain ⟨current, rest, frames⟩ := List.exists_cons_of_ne_nil running
  have awaits := awaiting.frames
  rw [frames] at awaits
  obtain ⟨⟨setting, held, typed⟩, awaitsRest⟩ := List.forall_mem_cons.mp awaits
  exact ⟨current, setting, held, awaiting.toKept, ⟨rest, frames, awaitsRest⟩, typed⟩

end Machine

namespace Exec

variable {α : Type} {machine : Machine} {good : α → Machine → Prop} {current : Frame}
  {setting : Setting} {expected held : Layout}

/-! ## The innermost activation -/

theorem frame_of_poised (poised : machine.Poised current setting expected held) :
    frame machine = .ok current machine := by
  obtain ⟨rest, frames, _⟩ := poised.frames
  exact frame_of_cons frames

theorem settles_frame_bind {f : Frame → Exec α}
    (poised : machine.Poised current setting expected held)
    (next : Settles machine (f current) good) : Settles machine (frame >>= f) good :=
  settles_bind_of_eq (frame_of_poised poised) next

/-- The innermost activation has changed, and its new state is as said. -/
theorem settles_modifyFrame {change : Frame → Frame} {further layout : Layout}
    (poised : machine.Poised current setting expected held)
    (typed : (change current).Typed machine.store machine.contexts setting further layout) :
    Settles machine (modifyFrame change)
      fun _ reached => reached.Poised (change current) setting further layout := by
  obtain ⟨rest, frames, awaits⟩ := poised.frames
  refine .ok ?_
  dsimp only
  rw [frames]
  exact ⟨⟨poised.heap, poised.session⟩, ⟨rest, rfl, awaits⟩, typed⟩

/-! ## The stack of operands -/

theorem settles_push {top : Bool} {value : Value}
    (poised : machine.Poised current setting (top :: held) held)
    (isReceiver : top = true → value = current.receiver) :
    Settles machine (push value) fun _ reached => reached.Ready := by
  refine settles_get_bind (settles_frame_bind poised ?_)
  dsimp only
  split
  · exact settles_throw_bind poised.toKept rfl
  · apply (settles_modifyFrame poised (poised.current.push isReceiver)).mono
    intro _ reached isPoised
    exact ⟨_, _, _, isPoised⟩

/-- The value of a message comes on the stack of the activation that waits for it. -/
theorem settles_push_answer (value : Value) (awaiting : machine.Awaiting)
    (running : machine.frames ≠ []) :
    Settles machine (push value) fun _ reached => reached.Ready := by
  obtain ⟨current, setting, held, poised⟩ := awaiting.poised running
  exact settles_push poised nofun

theorem settles_pushTracked (value : Value) (awaiting : machine.Awaiting)
    (running : machine.frames ≠ []) :
    Settles machine (pushTracked value) fun _ reached => reached.Ready := by
  have tracked := Store.inherits_track machine.store value
  exact settles_modify_bind (settles_push_answer value
    (awaiting.withStore (awaiting.heap.inherits tracked) tracked.preserves) running)

theorem settles_pop {top : Bool} (poised : machine.Poised current setting expected (top :: held)) :
    Settles machine pop fun value reached =>
      (∃ stack, reached.Poised { current with stack := stack } setting expected held) ∧
        (top = true → value = current.receiver) := by
  apply settles_frame_bind poised
  have stack := poised.current.stack
  cases operands : current.stack with
  | nil =>
      rw [operands] at stack
      cases stack
  | cons value rest =>
      rw [operands] at stack
      obtain ⟨isReceiver, stackRest⟩ := List.forall₂_cons.mp stack
      have typed : Frame.Typed machine.store machine.contexts setting expected held
          { current with stack := rest } :=
        { poised.current with stack := stackRest }
      refine (settles_modifyFrame poised typed).bind fun _ isPoised => ?_
      exact settles_pure ⟨⟨rest, isPoised⟩, isReceiver⟩

theorem settles_peek {top : Bool} (poised : machine.Poised current setting expected (top :: held)) :
    Settles machine peek fun value reached =>
      machine = reached ∧ (top = true → value = current.receiver) := by
  apply settles_frame_bind poised
  have stack := poised.current.stack
  cases operands : current.stack with
  | nil =>
      rw [operands] at stack
      cases stack
  | cons value rest =>
      rw [operands] at stack
      exact settles_pure ⟨rfl, (List.forall₂_cons.mp stack).1⟩

theorem settles_popMany {tops : Layout} {count : Nat} (isCount : tops.length = count)
    (poised : machine.Poised current setting expected (tops ++ held)) :
    Settles machine (popMany count) fun _ reached =>
      ∃ stack, reached.Poised { current with stack := stack } setting expected held := by
  subst isCount
  have stack := poised.current.stack
  have enough : tops.length ≤ current.stack.length := by
    rw [← stack.length_eq, List.length_append]
    omega
  apply settles_frame_bind poised
  dsimp only
  rw [if_neg (by rw [List.length_take]; omega)]
  have typed : Frame.Typed machine.store machine.contexts setting expected held
      { current with stack := current.stack.drop tops.length } := by
    have dropped := List.forall₂_drop tops.length stack
    rw [List.drop_left] at dropped
    exact { poised.current with stack := dropped }
  refine (settles_modifyFrame poised typed).bind fun _ isPoised => ?_
  exact settles_pure ⟨_, isPoised⟩

/-! ## Operands of instructions -/

theorem constantAt?_of_poised (poised : machine.Poised current setting expected held)
    (index : Option Nat) :
    constantAt? index machine =
      .ok (index.bind fun index => current.code.constants[index]?) machine := by
  unfold constantAt?
  change EStateM.bind frame _ machine = _
  unfold EStateM.bind
  rw [frame_of_poised poised]
  rfl

theorem nameOperand_of_poised {opcode : Opcode} {index : Nat} {name : String}
    (poised : machine.Poised current setting expected held)
    (small : index ≤ Instruction.maxPackedIndex)
    (found : current.code.constants[index]? = some (.string name)) :
    nameOperand (.indexed opcode index) machine = .ok name machine := by
  have fits : index < 0x80000000 := Nat.lt_of_le_of_lt small (by decide)
  unfold nameOperand
  change EStateM.bind (constantAt? (operandIndex? (Int32.ofNat index))) _ machine = _
  unfold EStateM.bind
  rw [operandIndex?_ofNat fits, constantAt?_of_poised poised, Option.bind_some, found]
  rfl

/-! ## Variables -/

theorem settles_loadSlot (context : ContextId) (slot : Nat)
    (poised : machine.Poised current setting (false :: held) held) :
    Settles machine (loadSlot context slot) fun _ reached => reached.Ready := by
  apply settles_get_bind
  cases machine.contexts.load? context slot with
  | none =>
      exact .error poised.toKept (Or.inr rfl)
  | some value =>
      exact settles_push poised nofun

theorem settles_storeSlot (context : ContextId) (slot : Nat) (value : Value)
    (poised : machine.Poised current setting held held) :
    Settles machine (storeSlot context slot value) fun _ reached => reached.Ready := by
  apply settles_get_bind
  split
  · rename_i isLive
    obtain ⟨live, found⟩ := Option.isSome_iff_exists.mp isLive
    have keeps := Arena.keeps_put found slot value
    exact .ok ⟨_, _, _, poised.withContexts keeps (poised.heap.wellFormed.put context slot value)⟩
  · exact .error poised.toKept (Or.inr rfl)

theorem settles_outerSlot {opcode : Opcode} {slot depth : Nat}
    (near : depth ≤ Instruction.maxPackedCount) (inside : depth ≤ setting.depth)
    (poised : machine.Poised current setting expected held) :
    Settles machine (outerSlot (.packed opcode slot depth)) fun _ reached => machine = reached := by
  unfold outerSlot
  dsimp only
  refine settles_get_bind (settles_frame_bind poised ?_)
  have nested := (poised.current.context.shallower inside).resolve?
  rw [show (Instruction.packed opcode slot depth).operand =
      Instruction.packedOperand slot depth from rfl,
    Instruction.unpack_packedOperand_count slot near]
  cases resolved : machine.contexts.resolve? current.context depth with
  | none =>
      exact .error poised.toKept (Or.inr rfl)
  | some target =>
      cases target with
      | none =>
          exact (nested resolved).elim
      | some context =>
          exact .ok rfl

/-- The receiver of a method of instances is there, and it is an instance. -/
theorem settles_receiverRecord (inInstance : setting.side = some false)
    (present : ∀ id ∈ current.receiver.references, (machine.store.get? id).isSome = true)
    (poised : machine.Poised current setting expected held) :
    Settles machine receiverRecord fun answer reached =>
      machine = reached ∧ machine.store.get? answer.1 = some (.record answer.2.1 answer.2.2) := by
  refine settles_frame_bind poised (settles_get_bind ?_)
  obtain ⟨id, isRef, _, isRecord⟩ := poised.current.stands.receiver inInstance
  rw [isRef] at present ⊢
  obtain ⟨object, found⟩ := Option.isSome_iff_exists.mp (present id List.mem_cons_self)
  obtain ⟨classId, fields, rfl⟩ := isRecord object found
  dsimp only [Store.see]
  rw [found]
  exact .ok ⟨rfl, found⟩

theorem settles_fieldFault (kept : machine.Kept) (classId : ObjectId) (index : Nat) :
    Settles machine (do throw (← fieldFault classId index)) good :=
  .error kept (Or.inl rfl)

theorem settles_loadField (index : Nat) (inInstance : setting.side = some false)
    (present : ∀ id ∈ current.receiver.references, (machine.store.get? id).isSome = true)
    (poised : machine.Poised current setting (false :: held) held) :
    Settles machine (loadField index) fun _ reached => reached.Ready := by
  apply (settles_receiverRecord inInstance present poised).bind
  rintro ⟨id, classId, fields⟩ _ _ ⟨rfl, _⟩
  dsimp only
  split
  · exact settles_push poised nofun
  · exact settles_fieldFault poised.toKept classId index

theorem settles_storeField {top : Bool} (index : Nat) (inInstance : setting.side = some false)
    (present : ∀ id ∈ current.receiver.references, (machine.store.get? id).isSome = true)
    (poised : machine.Poised current setting (top :: held) (top :: held)) :
    Settles machine (storeField index) fun _ reached => reached.Ready := by
  apply (settles_receiverRecord inInstance present poised).bind
  rintro ⟨id, classId, fields⟩ _ _ ⟨rfl, found⟩
  apply (settles_peek poised).bind
  rintro value _ _ ⟨rfl, _⟩
  split
  · have inherits := Store.inherits_setField found index value
    exact .ok ⟨_, _, _, poised.withStore (poised.heap.inherits inherits) inherits.preserves⟩
  · exact settles_fieldFault poised.toKept classId index

theorem owner_of_poised (opcode : Opcode) (inClass : setting.side.isSome = true)
    (poised : machine.Poised current setting expected held) :
    ∃ id, current.owner = some id ∧ owner opcode machine = .ok id machine := by
  obtain ⟨id, isOwner⟩ := Option.isSome_iff_exists.mp (poised.current.stands.owner inClass)
  refine ⟨id, isOwner, ?_⟩
  unfold owner
  change EStateM.bind frame _ machine = _
  unfold EStateM.bind
  rw [frame_of_poised poised]
  dsimp only
  rw [isOwner]
  rfl

theorem settles_loadClassVar {index : Nat} {name : String} (inClass : setting.side.isSome = true)
    (small : index ≤ Instruction.maxPackedIndex)
    (isName : current.code.constants[index]? = some (.string name))
    (poised : machine.Poised current setting (false :: held) held) :
    Settles machine (loadClassVar (.indexed .loadClassVar index))
      fun _ reached => reached.Ready := by
  obtain ⟨id, _, isOwner⟩ := owner_of_poised .loadClassVar inClass poised
  apply settles_bind_of_eq (nameOperand_of_poised poised small isName)
  refine settles_bind_of_eq isOwner (settles_get_bind ?_)
  split
  · exact settles_push poised nofun
  · exact settles_throw poised.toKept rfl

theorem settles_storeClassVar {index : Nat} {name : String} {top : Bool}
    (inClass : setting.side.isSome = true) (small : index ≤ Instruction.maxPackedIndex)
    (isName : current.code.constants[index]? = some (.string name))
    (poised : machine.Poised current setting (top :: held) (top :: held)) :
    Settles machine (storeClassVar (.indexed .storeClassVar index))
      fun _ reached => reached.Ready := by
  obtain ⟨id, _, isOwner⟩ := owner_of_poised .storeClassVar inClass poised
  apply settles_bind_of_eq (nameOperand_of_poised poised small isName)
  apply settles_bind_of_eq isOwner
  apply (settles_peek poised).bind
  rintro value _ _ ⟨rfl, _⟩
  apply settles_get_bind
  split
  · rename_i found
    have inherits :=
      Store.inherits_setOwnClassVar (Store.class?_of_classVarOwner? found) name value
    exact .ok ⟨_, _, _, poised.withStore (poised.heap.inherits inherits) inherits.preserves⟩
  · exact settles_throw poised.toKept rfl

theorem settles_loadGlobal {index : Nat} {name : String}
    (small : index ≤ Instruction.maxPackedIndex)
    (isName : current.code.constants[index]? = some (.string name))
    (poised : machine.Poised current setting (false :: held) held) :
    Settles machine (loadGlobal (.indexed .loadGlobal index)) fun _ reached => reached.Ready := by
  refine settles_bind_of_eq (nameOperand_of_poised poised small isName) (settles_get_bind ?_)
  split
  · exact settles_push poised nofun
  · exact settles_throw poised.toKept rfl

theorem settles_storeGlobal {index : Nat} {name : String} {top : Bool}
    (small : index ≤ Instruction.maxPackedIndex)
    (isName : current.code.constants[index]? = some (.string name))
    (poised : machine.Poised current setting (top :: held) (top :: held)) :
    Settles machine (storeGlobal (.indexed .storeGlobal index)) fun _ reached => reached.Ready := by
  apply settles_bind_of_eq (nameOperand_of_poised poised small isName)
  apply (settles_peek poised).bind
  rintro value _ _ ⟨rfl, _⟩
  exact .ok ⟨_, _, _, ⟨poised.heap, poised.session⟩, poised.frames, poised.current⟩

/-! ## Activations -/

theorem settles_checkDepth (kept : machine.Kept) :
    Settles machine checkDepth fun _ reached => machine = reached := by
  apply settles_get_bind
  split
  · exact settles_throw kept rfl
  · exact settles_pure rfl

theorem settles_newContext_bind {outer : Option ContextId} {locals : List Value}
    {f : ContextId → Exec α}
    (next : Settles { machine with contexts := (machine.contexts.alloc ⟨locals.toArray, outer⟩).2 }
      (f (machine.contexts.alloc ⟨locals.toArray, outer⟩).1) good) :
    Settles machine (newContext outer locals >>= f) good :=
  next

/-- A new activation that can start, with all others waiting for its value. -/
theorem settles_enter {build : FrameId → Frame} (awaiting : machine.Awaiting)
    (ready : ∀ id, (build id).Ready machine.store machine.contexts) :
    Settles machine (enter build) fun _ reached => reached.Ready := by
  obtain ⟨setting, layout, typed⟩ := ready ⟨machine.lastFrame + 1⟩
  exact .ok ⟨_, setting, layout, ⟨awaiting.heap, awaiting.session⟩,
    ⟨machine.frames, rfl, awaiting.frames⟩, typed⟩

theorem settles_callMethod {receiver : Value} {method : MethodDescriptor} {classSide : Bool}
    (ownerId : ObjectId) (definition : ClassObject) (arguments : List Value)
    (awaiting : machine.Awaiting) (safe : method.body.Safe (.method classSide))
    (isInstance : classSide = false → machine.store.Instance receiver) :
    Settles machine (callMethod receiver ownerId definition method classSide arguments)
      fun _ reached => reached.Ready := by
  apply (settles_checkDepth awaiting.toKept).bind
  rintro _ _ _ rfl
  have wellFormed := awaiting.heap.wellFormed
  have allocated := awaiting.withContexts (Arena.keeps_alloc wellFormed ⟨arguments.toArray, none⟩)
    (wellFormed.alloc _)
  have issued := Arena.issued_alloc wellFormed ⟨arguments.toArray, none⟩
  refine settles_newContext_bind (settles_enter allocated fun id => ?_)
  refine Frame.ready_of_start safe rfl rfl issued ?_
  refine ⟨fun _ => rfl, fun side same => Option.some.inj same, fun inInstance => ?_⟩
  exact isInstance (Option.some.inj inInstance)

theorem settles_callBlock {block : BlockRef} (arguments : List Value) (loop : Option Iteration)
    (awaiting : machine.Awaiting)
    (typed : (Object.block block.closure).Typed machine.store machine.contexts) :
    Settles machine (callBlock block arguments loop) fun _ reached => reached.Ready := by
  cases typed with
  | plain impossible =>
      cases impossible
  | block safe nested stands =>
      unfold callBlock
      dsimp only
      split
      · exact settles_throw_bind awaiting.toKept rfl
      · apply (settles_checkDepth awaiting.toKept).bind
        rintro _ _ _ rfl
        have wellFormed := awaiting.heap.wellFormed
        have allocated := awaiting.withContexts
          (Arena.keeps_alloc wellFormed ⟨arguments.toArray, some block.closure.outer⟩)
          (wellFormed.alloc _)
        have around := Arena.nested_alloc wellFormed nested arguments.toArray
        refine settles_newContext_bind (settles_enter allocated fun id => ?_)
        exact Frame.ready_of_start safe rfl rfl around
          ⟨stands.owner, stands.classSide, stands.receiver⟩

theorem settles_write (text : String) (awaiting : machine.Awaiting) :
    Settles machine (write text)
      fun _ reached => reached.Awaiting ∧ reached.frames = machine.frames := by
  apply settles_get_bind
  dsimp only
  split
  · split
    · exact settles_throw awaiting.toKept rfl
    · exact settles_pure ⟨awaiting, rfl⟩
  · exact .ok ⟨⟨⟨awaiting.heap, awaiting.session⟩, awaiting.frames⟩, rfl⟩

/-! ## Messages -/

/-- A block in an action is one that the machine has. -/
def Carries (store : Store) (contexts : Arena) : Action → Prop
  | .call block _ _ => (Object.block block.closure).Typed store contexts
  | .answer _ | .write .. => True

theorem settles_perform {action : Action} (awaiting : machine.Awaiting)
    (running : machine.frames ≠ []) (carries : Carries machine.store machine.contexts action) :
    Settles machine (perform action) fun _ reached => reached.Ready := by
  cases action with
  | answer value =>
      exact settles_pushTracked value awaiting running
  | call block arguments loop =>
      exact settles_callBlock arguments loop awaiting carries
  | write text value =>
      apply (settles_write text awaiting).bind
      rintro _ reached _ ⟨awaitingStill, sameFrames⟩
      exact settles_pushTracked value awaitingStill (sameFrames ▸ running)

/-- Built-in responses find no fault with the machine, leave its code alone, and call only blocks
that the machine has. -/
theorem settles_respond {link : Link} {effect : Effect Action} (awaiting : machine.Awaiting)
    (running : machine.frames ≠ [])
    (effects : Effect.Agrees link machine.store machine.store effect effect Link.Actions) :
    Settles machine (do perform (← onStore effect)) fun _ reached => reached.Ready := by
  change Settled _ (EStateM.bind (onStore effect) perform machine)
  unfold EStateM.bind onStore
  unfold Effect.Agrees at effects
  cases outcome : effect machine.store with
  | ok action store =>
      rw [outcome] at effects
      cases effects with
      | @ok later _ _ _ _ reached actions =>
          have heap := awaiting.heap.inherits reached.inherits
          apply settles_perform (awaiting.withStore heap reached.inherits.preserves) running
          cases action with
          | answer _ | write _ _ =>
              trivial
          | call block arguments loop =>
              cases actions with
              | call blocks _ _ =>
                  exact heap.objects (reached.stores.closures blocks).1
  | error cause store =>
      rw [outcome] at effects
      cases effects with
      | error reached external =>
          exact .error (awaiting.toKept.withStore (awaiting.heap.inherits reached.inherits))
            (Or.inl (Cause.isOfMessage_iff.mp external).1)

theorem settles_checkArgumentCount (selector : Selector) (given : Nat) (kept : machine.Kept) :
    Settles machine (checkArgumentCount selector given) fun _ reached => machine = reached := by
  unfold checkArgumentCount
  split
  · exact settles_throw kept rfl
  · exact settles_pure rfl

theorem safe_of_method? {store : Store} {contexts : Arena} {id : ObjectId}
    {definition : ClassObject} {classSide : Bool} {selector : Selector} {method : MethodDescriptor}
    (heap : Heap store contexts) (isClass : store.class? id = some definition)
    (found : definition.method? classSide selector = some method) :
    method.body.Safe (.method classSide) := by
  unfold ClassObject.method? at found
  have member := List.mem_reverse.mp (List.mem_of_find?_eq_some found)
  cases heap.objects (Store.get?_of_class? isClass) with
  | plain impossible =>
      cases impossible
  | classObject safe safeClassSide =>
      cases classSide with
      | false =>
          exact safe method member
      | true =>
          exact safeClassSide method member

section Messages

variable {link : Link} {receiver : Value} {arguments : List Value}
  (machines : link.Machines machine machine) (knownReceiver : link.Knows receiver)
  (known : ∀ value ∈ arguments, link.Knows value)
include machines knownReceiver known

theorem settles_respondUniversally (selector : Selector) (awaiting : machine.Awaiting)
    (running : machine.frames ≠ []) :
    Settles machine (respondUniversally receiver selector arguments)
      fun _ reached => reached.Ready := by
  apply settles_get_bind
  have responses := responses_universal machines.stores knownReceiver selector
  dsimp only
  cases found : machine.store.universalResponse? receiver selector with
  | none =>
      exact settles_throw awaiting.toKept rfl
  | some response =>
      rw [found] at responses
      cases responses with
      | some effects =>
          exact settles_respond awaiting running (effects known)

theorem settles_send (selector : Selector) (awaiting : machine.Awaiting)
    (running : machine.frames ≠ []) :
    Settles machine (send receiver selector arguments) fun _ reached => reached.Ready := by
  apply (settles_checkArgumentCount selector _ awaiting.toKept).bind
  rintro _ _ _ rfl
  apply settles_get_bind
  have responses := responses_builtin machines.stores knownReceiver selector
  dsimp only
  generalize machine.store.builtinResponse? receiver selector = response at responses ⊢
  cases responses with
  | some effects =>
      exact settles_respond awaiting running (effects known)
  | none =>
      dsimp only
      cases found : machine.store.method? receiver selector with
      | none =>
          exact settles_respondUniversally machines knownReceiver known selector awaiting running
      | some entry =>
          obtain ⟨ownerId, definition, method, classSide⟩ := entry
          unfold Store.method? at found
          cases seen : machine.store.see receiver with
          | record id classId fields =>
              simp only [seen] at found
              obtain ⟨_, isFound, same⟩ := Option.map_eq_some_iff.mp found
              cases same
              obtain ⟨isClass, isMethod⟩ := Store.method?_of_lookup isFound
              exact settles_callMethod _ _ _ awaiting
                (safe_of_method? awaiting.heap isClass isMethod)
                fun _ => Store.instance_of_see seen
          | classObject id ofReceiver =>
              simp only [seen] at found
              obtain ⟨_, isFound, same⟩ := Option.map_eq_some_iff.mp found
              cases same
              obtain ⟨isClass, isMethod⟩ := Store.method?_of_lookup isFound
              exact settles_callMethod _ _ _ awaiting
                (safe_of_method? awaiting.heap isClass isMethod)
                nofun
          | _ =>
              simp only [seen] at found
              cases found

/-- The receiver of a message to `super` is the receiver of the running method. -/
theorem settles_superSend (selector : Selector) (inClass : setting.side.isSome = true)
    (isReceiver : receiver = current.receiver)
    (poised : machine.Poised current setting (false :: held) held) :
    Settles machine (superSend receiver selector arguments) fun _ reached => reached.Ready := by
  obtain ⟨awaiting, running⟩ := poised.awaiting
  apply (settles_checkArgumentCount selector _ awaiting.toKept).bind
  rintro _ _ _ rfl
  apply settles_frame_bind poised
  obtain ⟨id, _, isOwner⟩ := owner_of_poised .superSend inClass poised
  refine settles_bind_of_eq isOwner (settles_get_bind ?_)
  split
  · rename_i ownerId definition method found
    obtain ⟨lower, _, inParent⟩ := Option.bind_eq_some_iff.mp found
    obtain ⟨above, _, isFound⟩ := Option.bind_eq_some_iff.mp inParent
    obtain ⟨isClass, isMethod⟩ := Store.method?_of_lookup isFound
    obtain ⟨side, isSide⟩ := Option.isSome_iff_exists.mp inClass
    apply settles_callMethod _ _ _ awaiting (safe_of_method? awaiting.heap isClass isMethod)
    intro instanceSide
    rw [isReceiver]
    exact poised.current.stands.receiver
      (isSide.trans (congrArg some ((poised.current.stands.classSide side isSide).symm.trans
        instanceSide)))
  · exact settles_respondUniversally machines knownReceiver known selector awaiting running

end Messages

/-- The selector, the arguments and the receiver of a message are there. -/
theorem settles_takeMessage {opcode : Opcode} {index : Nat} {selector : Selector}
    {tops : Layout} {top : Bool} (small : index ≤ Instruction.maxPackedIndex)
    (isName : current.code.constants[index]? = some (.string selector))
    (few : tops.length ≤ Instruction.maxPackedCount)
    (poised : machine.Poised current setting expected (tops ++ top :: held)) :
    Settles machine (takeMessage (.packed opcode index tops.length)) fun answer reached =>
      (∃ stack, reached.Poised { current with stack := stack } setting expected held) ∧
        (top = true → answer.1 = current.receiver) := by
  unfold takeMessage
  rw [show (Instruction.packed opcode index tops.length).operand =
      Instruction.packedOperand index tops.length from rfl,
    Instruction.unpack_packedOperand small few]
  refine settles_bind_of_eq (constantAt?_of_poised poised _) ?_
  rw [Option.bind_some, isName]
  apply (settles_popMany rfl poised).bind
  rintro arguments reached _ ⟨stack, poisedAfter⟩
  apply (settles_pop poisedAfter).bind
  rintro receiver last _ ⟨poisedLast, isReceiver⟩
  exact settles_pure ⟨poisedLast, isReceiver⟩

/-! ## Objects -/

theorem settles_pushConstant {index : Nat} {constant : Constant}
    (small : index ≤ Instruction.maxPackedIndex)
    (found : current.code.constants[index]? = some constant) (isScalar : constant.isScalar = true)
    (poised : machine.Poised current setting (false :: held) held) :
    Settles machine (pushConstant (.indexed .pushConstant index))
      fun _ reached => reached.Ready := by
  have fits : index < 0x80000000 := Nat.lt_of_le_of_lt small (by decide)
  unfold pushConstant
  rw [show (Instruction.indexed .pushConstant index).operand = Int32.ofNat index from rfl,
    operandIndex?_ofNat fits]
  refine settles_bind_of_eq (constantAt?_of_poised poised _) ?_
  rw [Option.bind_some, found]
  cases constant with
  | int _ | float _ | string _ | bool _ | nil =>
      exact settles_push poised nofun
  | block _ | classDescriptor _ =>
      cases isScalar

/-- A new object comes on the stack. -/
theorem settles_pushNew {object : Object} (awaiting : machine.Awaiting)
    (running : machine.frames ≠ []) (typed : object.Typed machine.store machine.contexts) :
    Settles machine
      (do
        modify fun machine => { machine with store := (machine.store.alloc object).2 }
        pushTracked (.ref (machine.store.alloc object).1))
      fun _ reached => reached.Ready :=
  settles_modify_bind (settles_pushTracked _
    (awaiting.withStore (awaiting.heap.alloc typed) (Store.preserves_alloc _ _)) running)

theorem settles_superclassOf (descriptor : ClassDescriptor) (kept : machine.Kept) :
    Settles machine (superclassOf descriptor) fun _ reached => machine = reached := by
  unfold superclassOf
  split
  · exact settles_pure rfl
  · apply settles_get_bind
    split
    · exact settles_pure rfl
    · exact settles_throw kept rfl

theorem safe_of_classDescriptor {unit : CodeUnit} {descriptor : ClassDescriptor} {index : Nat}
    (safe : unit.Safe setting)
    (found : unit.constants[index]? = some (.classDescriptor descriptor)) :
    (∀ method ∈ descriptor.methods, method.body.Safe (.method false)) ∧
      ∀ method ∈ descriptor.classMethods, method.body.Safe (.method true) := by
  cases safe with
  | intro _ constants =>
      cases constants _ (List.mem_of_getElem? found) with
      | scalar impossible =>
          cases impossible
      | classDescriptor methods classMethods =>
          exact ⟨methods, classMethods⟩

theorem safe_of_block {unit body : CodeUnit} {index : Nat} (safe : unit.Safe setting)
    (found : unit.constants[index]? = some (.block body)) : body.Safe setting.inside := by
  cases safe with
  | intro _ constants =>
      cases constants _ (List.mem_of_getElem? found) with
      | scalar impossible =>
          cases impossible
      | block safeBody =>
          exact safeBody

theorem settles_defineClass {index : Nat} {descriptor : ClassDescriptor}
    (small : index ≤ Instruction.maxPackedIndex)
    (found : current.code.constants[index]? = some (.classDescriptor descriptor))
    (poised : machine.Poised current setting (false :: held) held) :
    Settles machine (defineClass (.indexed .defineClass index)) fun _ reached => reached.Ready := by
  have fits : index < 0x80000000 := Nat.lt_of_le_of_lt small (by decide)
  obtain ⟨awaiting, running⟩ := poised.awaiting
  unfold defineClass
  rw [show (Instruction.indexed .defineClass index).operand = Int32.ofNat index from rfl,
    operandIndex?_ofNat fits]
  refine settles_bind_of_eq (constantAt?_of_poised poised _) ?_
  rw [Option.bind_some, found]
  apply (settles_superclassOf descriptor poised.toKept).bind
  rintro superclass _ _ rfl
  refine settles_get_bind (settles_modify_bind ?_)
  obtain ⟨methods, classMethods⟩ := safe_of_classDescriptor poised.current.safe found
  have heap : Heap (machine.store.newClass descriptor superclass).2 machine.contexts :=
    awaiting.heap.alloc (.classObject methods classMethods)
  have created := awaiting.withStore heap (Store.preserves_alloc _ _)
  exact settles_pushTracked _ ⟨⟨created.heap, created.session⟩, created.frames⟩ running

theorem settles_makeClosure {index count : Nat} {body : CodeUnit}
    (small : index ≤ Instruction.maxPackedIndex) (few : count ≤ Instruction.maxPackedCount)
    (found : current.code.constants[index]? = some (.block body))
    (poised : machine.Poised current setting (false :: held) held) :
    Settles machine (makeClosure (.packed .makeClosure index count))
      fun _ reached => reached.Ready := by
  obtain ⟨awaiting, running⟩ := poised.awaiting
  have safeBody := safe_of_block poised.current.safe found
  unfold makeClosure
  rw [show (Instruction.packed .makeClosure index count).operand =
    Instruction.packedOperand index count from rfl, Instruction.unpack_packedOperand small few]
  refine settles_bind_of_eq (constantAt?_of_poised poised _) ?_
  rw [Option.bind_some, found]
  refine settles_frame_bind poised (settles_get_bind ?_)
  exact settles_pushNew awaiting running
    (.block safeBody poised.current.context poised.current.stands)

theorem settles_makeArray {count : Nat} {tops : Layout} (isCount : tops.length = count)
    (poised : machine.Poised current setting (false :: held) (tops ++ held)) :
    Settles machine (makeArray count) fun _ reached => reached.Ready := by
  apply (settles_popMany isCount poised).bind
  rintro items reached _ ⟨stack, poisedAfter⟩
  obtain ⟨awaiting, running⟩ := poisedAfter.awaiting
  exact settles_get_bind (settles_pushNew awaiting running (.plain rfl))

theorem settles_makeDictionary {count : Nat} {tops : Layout} (isCount : tops.length = 2 * count)
    (poised : machine.Poised current setting (false :: held) (tops ++ held)) :
    Settles machine (makeDictionary count) fun _ reached => reached.Ready := by
  apply (settles_popMany isCount poised).bind
  rintro items reached _ ⟨stack, poisedAfter⟩
  obtain ⟨awaiting, running⟩ := poisedAfter.awaiting
  refine settles_settle_bind poisedAfter.toKept fun entries => ?_
  exact settles_get_bind (settles_pushNew awaiting running (.plain rfl))

/-! ## Returns -/

/-- After a step the machine can take the next one, or the program has finished. -/
def Onward : StepState → Machine → Prop
  | .running, machine => machine.Ready
  | .finished _, machine => machine.Kept

theorem settles_andGoOn {x : Exec Unit}
    (settles : Settles machine x fun _ reached => reached.Ready) :
    Settles machine (andGoOn x) Onward :=
  settles.bind fun _ ready => settles_pure ready

theorem settles_complete {link : Link} {value : Value} {done : Frame} {rest : List Frame}
    (kept : machine.Kept) (frames : machine.frames = done :: rest)
    (awaits : ∀ frame ∈ rest, frame.Awaits machine.store machine.contexts)
    (machines : link.Machines machine machine) (known : link.Knows value) :
    Settles machine (complete value) Onward := by
  have linkedFrames := machines.frames
  rw [frames] at linkedFrames
  obtain ⟨innermost, below⟩ := List.forall₂_cons.mp linkedFrames
  have popped := machines.withFrames below
  apply settles_get_bind
  rw [frames]
  apply settles_modify_bind
  cases rest with
  | nil =>
      exact .ok ⟨kept.heap, kept.session⟩
  | cons next further =>
      have awaiting : Machine.Awaiting { machine with frames := next :: further } :=
        ⟨⟨kept.heap, kept.session⟩, awaits⟩
      have running : next :: further ≠ [] := List.cons_ne_nil _ _
      have pending := innermost.loop
      cases loop : done.loop with
      | none =>
          exact settles_andGoOn (settles_push_answer value awaiting running)
      | some iteration =>
          rw [loop] at pending
          cases pending with
          | some loops =>
              change Settles _ (onStore (iteration.resume value) >>= fun action =>
                perform action >>= fun _ => pure .running) Onward
              rw [← bind_assoc]
              exact settles_andGoOn (settles_respond awaiting running
                (agrees_resume popped.stores loops known))

/-- The activation to which a block returns is there, and those below it were below the running
one. -/
theorem exists_cons_of_unwind? {home : FrameId} {current : Frame} {frames found : List Frame}
    (unwound : unwind? home (current :: frames) = some found) :
    ∃ done rest, found = done :: rest ∧ ∀ frame ∈ rest, frame ∈ frames := by
  induction frames generalizing current with
  | nil =>
      unfold unwind? at unwound
      split at unwound
      · cases unwound
        exact ⟨_, _, rfl, fun _ member => member⟩
      · cases unwound
  | cons next further inductionHypothesis =>
      unfold unwind? at unwound
      split at unwound
      · cases unwound
        exact ⟨_, _, rfl, fun _ member => member⟩
      · obtain ⟨done, rest, isFound, below⟩ := inductionHypothesis unwound
        exact ⟨done, rest, isFound, fun frame member => List.mem_cons_of_mem _ (below frame member)⟩

theorem settles_returnFromHome {link : Link} {value : Value}
    (poised : machine.Poised current setting expected held)
    (machines : link.Machines machine machine) (known : link.Knows value) :
    Settles machine (returnFromHome value) Onward := by
  obtain ⟨rest, frames, awaits⟩ := poised.frames
  apply settles_frame_bind poised
  dsimp only
  split
  · apply settles_get_bind
    rcases unwind?_self current.home machines.frames with expired |
      ⟨found, unwound, linkedFrames⟩
    · rw [expired]
      exact settles_throw_bind poised.toKept rfl
    · rw [unwound]
      have foundMachines := machines.withFrames linkedFrames
      rw [frames] at unwound
      obtain ⟨done, below, rfl, wereBelow⟩ := exists_cons_of_unwind? unwound
      exact settles_modify_bind (settles_complete ⟨poised.heap, poised.session⟩ rfl
        (fun frame member => awaits frame (wereBelow frame member)) foundMachines known)
  · exact settles_complete poised.toKept frames awaits machines known

/-! ## Instructions -/

/-- The receiver of the innermost activation has not gone away. -/
theorem receiver_present {link : Link} (poised : machine.Poised current setting expected held)
    (machines : link.Machines machine machine) :
    ∀ id ∈ current.receiver.references, (machine.store.get? id).isSome = true := by
  intro id reference
  obtain ⟨rest, frames, _⟩ := poised.frames
  have linkedFrames := machines.frames
  rw [frames] at linkedFrames
  obtain ⟨innermost, _⟩ := List.forall₂_cons.mp linkedFrames
  obtain ⟨object, _, found, _⟩ := machines.stores.get (innermost.receiver id reference)
  exact Option.isSome_iff_exists.mpr ⟨object, found⟩

/-- What two equal computations have agreed on. -/
theorem Agrees.of_ok {link : Link} {x : Exec α} {answers : Link → α → α → Prop} {answer : α}
    {reached : Machine} (agrees : Agrees link machine machine x x answers)
    (answered : x machine = .ok answer reached) :
    ∃ later : Link, later.Machines reached reached ∧ answers later answer answer := by
  unfold Agrees at agrees
  rw [answered] at agrees
  cases agrees with
  | ok isReached isAnswer =>
      exact ⟨_, isReached.2, isAnswer⟩

theorem settles_execute {link : Link} {instruction : Instruction} {before after : Layout}
    (fits : Fits setting current.code.constants instruction before after)
    (poised : machine.Poised current setting after before)
    (machines : link.Machines machine machine) :
    Settles machine (execute instruction) Onward := by
  cases fits with
  | pushConstant small found isScalar =>
      exact settles_andGoOn (settles_pushConstant small found isScalar poised)
  | pushSimple simple =>
      rcases simple with rfl | rfl | rfl
      · exact settles_andGoOn (settles_push poised nofun)
      · exact settles_andGoOn (settles_push poised nofun)
      · exact settles_andGoOn (settles_push poised nofun)
  | pushSelf =>
      exact settles_andGoOn (settles_frame_bind poised (settles_push poised fun _ => rfl))
  | pop =>
      refine settles_andGoOn ((settles_pop poised).bind ?_)
      rintro value reached _ ⟨⟨stack, poisedAfter⟩, _⟩
      exact settles_pure ⟨_, _, _, poisedAfter⟩
  | dup =>
      refine settles_andGoOn ((settles_peek poised).bind ?_)
      rintro value _ _ ⟨rfl, isReceiver⟩
      exact settles_push poised isReceiver
  | slot moves =>
      cases moves with
      | load =>
          exact settles_andGoOn (settles_frame_bind poised (settles_loadSlot _ _ poised))
      | store =>
          refine settles_andGoOn ((settles_peek poised).bind ?_)
          rintro value _ _ ⟨rfl, _⟩
          exact settles_frame_bind poised (settles_storeSlot _ _ value poised)
  | outer moves near inside =>
      cases moves with
      | load =>
          refine settles_andGoOn ((settles_outerSlot near inside poised).bind ?_)
          rintro ⟨context, slot⟩ _ _ rfl
          exact settles_loadSlot context slot poised
      | store =>
          refine settles_andGoOn ((settles_outerSlot near inside poised).bind ?_)
          rintro ⟨context, slot⟩ _ _ rfl
          apply (settles_peek poised).bind
          rintro value _ _ ⟨rfl, _⟩
          exact settles_storeSlot context slot value poised
  | field moves inInstance =>
      have present := receiver_present poised machines
      cases moves with
      | load =>
          exact settles_andGoOn (settles_loadField _ inInstance present poised)
      | store =>
          exact settles_andGoOn (settles_storeField _ inInstance present poised)
  | classVar moves inClass small isName =>
      cases moves with
      | load =>
          exact settles_andGoOn (settles_loadClassVar inClass small isName poised)
      | store =>
          exact settles_andGoOn (settles_storeClassVar inClass small isName poised)
  | global moves small isName =>
      cases moves with
      | load =>
          exact settles_andGoOn (settles_loadGlobal small isName poised)
      | store =>
          exact settles_andGoOn (settles_storeGlobal small isName poised)
  | send small isName few _ =>
      refine settles_andGoOn ((settles_takeMessage small isName few poised).bind ?_)
      rintro ⟨receiver, selector, arguments⟩ reached taken ⟨⟨stack, poisedAfter⟩, _⟩
      obtain ⟨later, laterMachines, _, knownReceiver, known⟩ :=
        (agrees_takeMessage_self _ machines).of_ok taken
      obtain ⟨awaiting, running⟩ := poisedAfter.awaiting
      exact settles_send laterMachines knownReceiver known selector awaiting running
  | superSend inClass small isName few _ =>
      refine settles_andGoOn ((settles_takeMessage small isName few poised).bind ?_)
      rintro ⟨receiver, selector, arguments⟩ reached taken ⟨⟨stack, poisedAfter⟩, isReceiver⟩
      obtain ⟨later, laterMachines, _, knownReceiver, known⟩ :=
        (agrees_takeMessage_self _ machines).of_ok taken
      refine settles_superSend laterMachines knownReceiver known selector inClass ?_ poisedAfter
      exact isReceiver rfl
  | defineClass small found =>
      exact settles_andGoOn (settles_defineClass small found poised)
  | makeClosure small few found =>
      exact settles_andGoOn (settles_makeClosure small few found poised)
  | makeArray few isCount =>
      refine settles_andGoOn (settles_makeArray ?_ poised)
      exact isCount.trans (elementCount_ofNat few).symm
  | makeDictionary few isCount =>
      refine settles_andGoOn (settles_makeDictionary ?_ poised)
      exact isCount.trans (congrArg (2 * ·) (elementCount_ofNat few).symm)
  | «return» =>
      apply (settles_pop poised).bind
      rintro value reached popped ⟨⟨stack, poisedAfter⟩, _⟩
      obtain ⟨later, laterMachines, _, known⟩ := (agrees_pop machines).of_ok popped
      obtain ⟨rest, frames, awaits⟩ := poisedAfter.frames
      exact settles_complete poisedAfter.toKept frames awaits laterMachines known
  | nonLocalReturn =>
      apply (settles_pop poised).bind
      rintro value reached popped ⟨⟨stack, poisedAfter⟩, _⟩
      obtain ⟨later, laterMachines, _, known⟩ := (agrees_pop machines).of_ok popped
      exact settles_returnFromHome poisedAfter laterMachines known

/-- The next instruction, or the return from code that has come to its end. -/
theorem settles_instructionStep {link : Link} (ready : machine.Ready)
    (isSame : link.pairing = .same) (machines : link.Machines machine machine) :
    Settles machine instructionStep Onward := by
  obtain ⟨current, setting, layout, poised⟩ := ready
  obtain ⟨rest, frames, awaits⟩ := poised.frames
  apply settles_frame_bind poised
  cases next : current.code.code[current.ip]? with
  | none =>
      refine settles_complete poised.toKept frames awaits machines ?_
      have knownStack := (List.forall₂_cons.mp (frames ▸ machines.frames)).1.stack
      cases operands : current.stack with
      | nil =>
          exact Link.knows_nil
      | cons value _ =>
          exact knownStack value (operands ▸ List.mem_cons_self)
  | some instruction =>
      obtain ⟨_, fits, further⟩ := poised.current.flows.next next
      have typed : Frame.Typed machine.store machine.contexts setting _ layout
          { current with ip := current.ip + 1 } :=
        { poised.current with flows := further }
      refine (settles_modifyFrame poised typed).bind fun advanced poisedAfter => ?_
      obtain ⟨later, laterMachines, _⟩ :=
        (agrees_advanceFrame_of_same isSame machines).of_ok advanced
      refine settles_execute ?_ poisedAfter laterMachines
      exact fits

end Exec

end Missive
