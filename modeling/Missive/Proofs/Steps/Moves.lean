import Mathlib.Logic.Relation
import Missive.Machine.Running
import Missive.Proofs.Code.Verified
import Missive.Proofs.Object.Store
import Missive.Proofs.Safety.Typing

/-!
# What a machine can do

Whatever a machine executes, it changes its activations and its code in a few ways only.  They are
listed here, each with what has been checked before it happens: a value comes on the stack or goes
away, the position changes, a block or a class is created from the constants of the running code,
an activation starts from a method or a block in the store, activations end, a program is loaded.
Everything else leaves the activations alone and creates no code.

An invariant of all machines is then a matter of one case for each move.

Most steps create neither a block nor a class.  In a plain step no class is created, and a message
to `super` goes to the receiver of the running method.  Arbitrary code also takes other steps, so
the moves depend on what they are allowed to do.
-/

namespace Missive

/-- The operand does not select what a running program needs for the instruction. -/
def Instruction.Misses (constants : List Constant) (contexts : Arena) (context : ContextId)
    (instruction : Instruction) : Prop :=
  let operand := instruction.operand
  match instruction.opcode.operandKind with
  | .constant => ∀ constant, selected constants operand = some constant →
    constant.kindName = "bytecode" ∨ constant.kindName = "class descriptor"
  | .name => ∀ name, selected constants operand ≠ some (.string name)
  | .outer => contexts.resolve? context (unpack operand).2 = some none
  | .send => ∀ selector, packedSelected constants operand ≠ some (.string selector)
  | .classDescriptor =>
    ∀ descriptor, selected constants operand ≠ some (.classDescriptor descriptor)
  | .closure => ∀ body, packedSelected constants operand ≠ some (.block body)
  | .none | .slot | .field | .count | .target => False

/-- The blocks that a pending loop calls. -/
def Iteration.blocks : Iteration → List BlockRef
  | .whileLoop condition body _ _ => condition :: body.toList
  | .forever body | .times body _ _ | .count body _ _ | .each body _ _ | .eachPair body _ _
  | .collect body _ _ | .filter body _ _ _ | .fold body _ _ | .detect body _ _ => [body]

/-- The instruction defines no class, and where it sends a message to `super` the receiver of the
message is that of the activation. -/
structure Instruction.Plain (instruction : Instruction) (frame : Frame) : Prop where
  notDefinition : instruction.opcode ≠ .defineClass
  ownReceiver : instruction.opcode = .superSend →
    frame.stack[(unpack instruction.operand).2]? = some frame.receiver

/-- The instruction assigns a local variable. -/
def Instruction.assigns (instruction : Instruction) : Bool :=
  instruction.opcode == .storeLocal || instruction.opcode == .storeOuter

/-- The block and the activation have the same home and receiver, and belong to the same class. -/
structure Closure.Shares (closure : Closure) (frame : Frame) : Prop where
  home : closure.home = frame.home
  receiver : closure.receiver = frame.receiver
  owner : closure.owner = frame.owner
  classSide : closure.classSide = frame.classSide

/-- What moves may do that not every step does. -/
structure Licence where
  /-- Blocks may be created. -/
  blocks : Prop
  /-- Classes may be created, and a message to `super` may go to any value. -/
  classes : Prop
  /-- Programs may start with local variables of their own. -/
  programs : Prop
  /-- Programs may start with the local variables of the session. -/
  session : Prop
  /-- Local variables may be assigned. -/
  stores : Prop

namespace Licence

/-- Everything is allowed. -/
def any : Licence := ⟨True, True, True, True, True⟩

/-- What steps may do. -/
def running : Licence := ⟨True, True, False, False, True⟩

/-- What plain steps may do. -/
def plain : Licence := ⟨True, False, False, False, True⟩

/-- What steps may do that assign no local variable. -/
def unassigning : Licence := ⟨True, True, False, False, False⟩

/-- What steps may do that neither create a block nor assign a local variable. -/
def blockless : Licence := ⟨False, True, False, False, False⟩

/-- The instruction does only what is allowed when the activation executes it. -/
structure Permits (licence : Licence) (instruction : Instruction) (frame : Frame) : Prop where
  blocks : instruction.opcode = .makeClosure → licence.blocks
  classes : ¬ licence.classes → instruction.Plain frame
  stores : instruction.assigns = true → licence.stores

end Licence

namespace Machine

/-- Activations are under way, and every one of them can take one more operand. -/
structure HasRoom (machine : Machine) : Prop where
  running : machine.frames ≠ []
  room : ∀ frame ∈ machine.frames, frame.stack.length < machine.config.maxStackDepth

/-- An activation at the start of its code that the machine can enter. -/
structure AtStart (machine : Machine) (frame : Frame) : Prop where
  id : frame.id = ⟨machine.lastFrame + 1⟩
  ip : frame.ip = 0
  stack : frame.stack = []

/-- The search for a method starts at the class of the receiver, or above the class of the running
method. -/
inductive Seeks (licence : Licence) (store : Store) (frames : List Frame) (receiver : Value) :
    (classSide : Bool) → ObjectId → Prop
  | record {id start : ObjectId} {fields : List Value} :
      store.see receiver = .record id start fields → Seeks licence store frames receiver false start
  | classObject {start : ObjectId} {definition : ClassObject} :
      store.see receiver = .classObject start definition →
      Seeks licence store frames receiver true start
  | above {current : Frame} {rest : List Frame} {id start : ObjectId} {lower : ClassObject} :
      frames = current :: rest → current.owner = some id → store.class? id = some lower →
      lower.superclass = some start → (¬ licence.classes → receiver = current.receiver) →
      Seeks licence store frames receiver current.classSide start

/-- The activation runs code that the machine has and that takes so many arguments, and the given
context is to be around its own. -/
inductive Runs (licence : Licence) (machine : Machine) (frame : Frame) (arguments : Nat) :
    Option ContextId → Prop
  | method {start owner : ObjectId} {selector : Selector} {definition : ClassObject}
      {method : MethodDescriptor} :
      Seeks licence machine.store machine.frames frame.receiver frame.classSide start →
      machine.store.lookup frame.classSide selector start = some (owner, definition, method) →
      frame.owner = some owner → frame.kind = .method → frame.code = method.body →
      frame.home = frame.id → frame.loop = none → selector.arity = arguments →
      Runs licence machine frame arguments none
  | block {id : ObjectId} {closure : Closure} : machine.store.get? id = some (.block closure) →
      frame.kind = .block → frame.code = closure.body → closure.Shares frame →
      closure.parameterCount = arguments → Runs licence machine frame arguments (some closure.outer)

/-- The context in which a program may start, and the contexts with it. -/
inductive Ground (licence : Licence) (machine : Machine) : ContextId → Arena → Prop
  | session : licence.session → Ground licence machine machine.sessionContext machine.contexts
  | own : licence.programs → Ground licence machine (machine.contexts.alloc ⟨#[], none⟩).1
      (machine.contexts.alloc ⟨#[], none⟩).2

/-- The activations, the session and the globals stay, no code comes, and no context comes or
changes.  Steps may be counted, and a result may come once nothing is under way. -/
structure Quiet (before after : Machine) : Prop where
  frames : after.frames = before.frames
  lastFrame : after.lastFrame = before.lastFrame
  config : after.config = before.config
  session : after.session = before.session
  globals : after.globals = before.globals
  sessionContext : after.sessionContext = before.sessionContext
  steps : before.steps ≤ after.steps
  inherits : before.store.Inherits after.store
  contexts : before.contexts.Retains after.contexts
  wellFormed : before.contexts.WellFormed → after.contexts.WellFormed
  result : before.frames ≠ [] → after.result = before.result

theorem Quiet.ofStore {machine : Machine} {store : Store}
    (inherits : machine.store.Inherits store) : Quiet machine { machine with store } :=
  ⟨rfl, rfl, rfl, rfl, rfl, rfl, Nat.le_refl _, inherits, .refl _, id, fun _ => rfl⟩

theorem Quiet.trans {first second third : Machine} (earlier : Quiet first second)
    (later : Quiet second third) : Quiet first third where
  frames := later.frames.trans earlier.frames
  lastFrame := later.lastFrame.trans earlier.lastFrame
  config := later.config.trans earlier.config
  session := later.session.trans earlier.session
  globals := later.globals.trans earlier.globals
  sessionContext := later.sessionContext.trans earlier.sessionContext
  steps := earlier.steps.trans later.steps
  inherits := earlier.inherits.trans later.inherits
  contexts := earlier.contexts.trans later.contexts
  wellFormed := fun wellFormed => later.wellFormed (earlier.wellFormed wellFormed)
  result running := (later.result (earlier.frames ▸ running)).trans (earlier.result running)

/-- Something is written. -/
theorem Quiet.ofOutput {machine : Machine} {output : Output} :
    Quiet machine { machine with output } :=
  ⟨rfl, rfl, rfl, rfl, rfl, rfl, Nat.le_refl _, .refl _, .refl _, id, fun _ => rfl⟩

/-- A result is kept. -/
theorem Quiet.ofResult {machine : Machine} {result : Option Value} (ended : machine.frames = []) :
    Quiet machine { machine with result } :=
  ⟨rfl, rfl, rfl, rfl, rfl, rfl, Nat.le_refl _, .refl _, .refl _, id,
    fun running => (running ended).elim⟩

theorem Quiet.counted (machine : Machine) :
    Quiet machine { machine with steps := machine.steps + 1 } :=
  ⟨rfl, rfl, rfl, rfl, rfl, rfl, Nat.le_succ _, .refl _, .refl _, id, fun _ => rfl⟩

/-- One change of the activations, the variables or the code. -/
inductive Move (licence : Licence) : Machine → Machine → Prop
  | quiet {before after : Machine} : Quiet before after → Move licence before after
  | assign {machine : Machine} {current : Frame} {rest : List Frame} {instruction : Instruction}
      {name : String} (value : Value) : machine.frames = current :: rest →
      instruction ∈ current.code.code.toList → instruction.opcode = .storeGlobal →
      Instruction.selected current.code.constants instruction.operand = some (.string name) →
      Move licence machine { machine with globals := machine.globals.set name value }
  | store {machine : Machine} {context : ContextId} (slot : Nat) (value : Value) :
      licence.stores → machine.contexts.isLive context = true →
      Move licence machine { machine with contexts := machine.contexts.put context slot value }
  | push {machine : Machine} {current : Frame} {rest : List Frame} (value : Value) :
      machine.frames = current :: rest →
      current.stack.length < machine.config.maxStackDepth →
      Move licence machine
        { machine with frames := { current with stack := value :: current.stack } :: rest }
  | drop {machine : Machine} {current : Frame} {rest : List Frame} (count : Nat) :
      machine.frames = current :: rest →
      Move licence machine
        { machine with frames := { current with stack := current.stack.drop count } :: rest }
  | advance {machine : Machine} {current : Frame} {rest : List Frame}
      {instruction : Instruction} : machine.frames = current :: rest →
      current.code.code[current.ip]? = some instruction →
      (¬ licence.classes → instruction.opcode ≠ .defineClass) →
      Move licence machine { machine with frames := { current with ip := current.ip + 1 } :: rest }
  | jump {machine : Machine} {current : Frame} {rest : List Frame} {instruction : Instruction} :
      machine.frames = current :: rest → instruction ∈ current.code.code.toList →
      instruction.opcode.operandKind = .target →
      Move licence machine
        { machine with
          frames := { current with ip := Exec.elementCount instruction.operand } :: rest }
  | makeBlock {machine : Machine} {current : Frame} {rest : List Frame} {closure : Closure} :
      licence.blocks → machine.frames = current :: rest →
      .block closure.body ∈ current.code.constants → closure.Shares current →
      Move licence machine { machine with store := (machine.store.alloc (.block closure)).2 }
  | makeClass {machine : Machine} {current : Frame} {rest : List Frame}
      {descriptor : ClassDescriptor} (superclass : Option ObjectId) (globals : Globals) :
      licence.classes → machine.frames = current :: rest →
      .classDescriptor descriptor ∈ current.code.constants →
      (∀ parent, superclass = some parent → ∃ above, machine.store.class? parent = some above) →
      Move licence machine
        { machine with store := (machine.store.newClass descriptor superclass).2, globals }
  /-- The other activations wait for the answer and have room for it. -/
  | call {machine : Machine} {frame : Frame} {outer : Option ContextId} (locals : Array Value) :
      machine.HasRoom → machine.frames.length < machine.config.maxFrames →
      machine.AtStart frame → machine.Runs licence frame locals.size outer →
      frame.context = (machine.contexts.alloc ⟨locals, outer⟩).1 →
      Move licence machine
        { machine with
          contexts := (machine.contexts.alloc ⟨locals, outer⟩).2
          lastFrame := machine.lastFrame + 1
          frames := frame :: machine.frames }
  | leave {machine : Machine} {frames : List Frame} : frames <:+ machine.frames →
      Move licence machine { machine with frames }
  | launch {machine : Machine} {code : CodeUnit} {context : ContextId} {contexts : Arena} :
      code.verify = .ok () → machine.Ground licence context contexts →
      Move licence machine ({ machine with contexts }.start code context)

/-- A block that exists: it lies in the store, or a pending loop calls it. -/
inductive HasClosure (machine : Machine) : Closure → Prop
  | stored {id : ObjectId} {closure : Closure} : machine.store.get? id = some (.block closure) →
      HasClosure machine closure
  | pending {frame : Frame} {iteration : Iteration} {block : BlockRef} :
      frame ∈ machine.frames → frame.loop = some iteration → block ∈ iteration.blocks →
      HasClosure machine block.closure

/-- Changes one after the other. -/
abbrev Moves (licence : Licence) : Machine → Machine → Prop := Relation.ReflTransGen (Move licence)

variable {licence : Licence} {machine before after : Machine}

/-- What every move keeps is kept by moves one after the other. -/
theorem Moves.keep {holds : Machine → Prop}
    (keep : ∀ {before after : Machine}, Move licence before after → holds before → holds after)
    (moves : Moves licence before after) (initially : holds before) : holds after := by
  induction moves with
  | refl =>
      exact initially
  | tail _ move inductionHypothesis =>
      exact keep move inductionHypothesis

/-! ## Contexts -/

theorem Move.sessionContext (move : Move licence before after) :
    after.sessionContext = before.sessionContext := by
  cases move with
  | quiet quiet =>
      exact quiet.sessionContext
  | assign _ _ _ _ _ | store _ _ _ _ | push _ _ _ | drop _ _ | advance _ _ _ | jump _ _ _
  | makeBlock _ _ _ _ | makeClass _ _ _ _ _ _ | call _ _ _ _ _ _ | leave _ | launch _ _ =>
      rfl

theorem Ground.allowed {context : ContextId} {contexts : Arena}
    (ground : machine.Ground licence context contexts) : licence.session ∨ licence.programs := by
  cases ground with
  | session allowed =>
      exact Or.inl allowed
  | own allowed =>
      exact Or.inr allowed

theorem Ground.retains {context : ContextId} {contexts : Arena}
    (ground : machine.Ground licence context contexts)
    (wellFormed : machine.contexts.WellFormed) :
    machine.contexts.Retains contexts ∧ contexts.WellFormed := by
  cases ground with
  | session _ =>
      exact ⟨.refl _, wellFormed⟩
  | own _ =>
      exact ⟨Arena.retains_alloc wellFormed _, wellFormed.alloc _⟩

/-- Contexts may come and go, but none changes unless a local variable is assigned. -/
theorem Move.retains_or_store (move : Move licence before after)
    (wellFormed : before.contexts.WellFormed) :
    before.contexts.Retains after.contexts ∧ after.contexts.WellFormed ∨
      licence.stores ∧ ∃ context slot value, before.contexts.isLive context = true ∧
        after.contexts = before.contexts.put context slot value := by
  cases move with
  | quiet quiet =>
      exact Or.inl ⟨quiet.contexts, quiet.wellFormed wellFormed⟩
  | store slot value allowed isLive =>
      exact Or.inr ⟨allowed, _, slot, value, isLive, rfl⟩
  | call _ _ _ _ _ _ =>
      exact Or.inl ⟨Arena.retains_alloc wellFormed _, wellFormed.alloc _⟩
  | launch _ ground =>
      exact Or.inl (ground.retains wellFormed)
  | assign _ _ _ _ _ | push _ _ _ | drop _ _ | advance _ _ _ | jump _ _ _ | makeBlock _ _ _ _
  | makeClass _ _ _ _ _ _ | leave _ =>
      exact Or.inl ⟨.refl _, wellFormed⟩

theorem Move.retains (move : Move licence before after) (unassigning : ¬ licence.stores)
    (wellFormed : before.contexts.WellFormed) :
    before.contexts.Retains after.contexts ∧ after.contexts.WellFormed :=
  (move.retains_or_store wellFormed).resolve_right fun stores => unassigning stores.1

/-- What is around a context stays. -/
theorem Move.contexts (move : Move licence before after)
    (wellFormed : before.contexts.WellFormed) :
    before.contexts.Keeps after.contexts ∧ after.contexts.WellFormed := by
  rcases move.retains_or_store wellFormed with
    ⟨retains, stillWellFormed⟩ | ⟨_, context, slot, value, isLive, contexts⟩
  · exact ⟨retains.keeps, stillWellFormed⟩
  · obtain ⟨live, found⟩ := Option.isSome_iff_exists.mp isLive
    rw [contexts]
    exact ⟨Arena.keeps_put found slot value, wellFormed.put context slot value⟩

theorem Moves.retains (moves : Moves licence before after) (unassigning : ¬ licence.stores)
    (wellFormed : before.contexts.WellFormed) :
    before.contexts.Retains after.contexts ∧ after.contexts.WellFormed := by
  induction moves with
  | refl =>
      exact ⟨.refl _, wellFormed⟩
  | tail _ move inductionHypothesis =>
      exact (move.retains unassigning inductionHypothesis.2).imp_left inductionHypothesis.1.trans

theorem Moves.contexts (moves : Moves licence before after)
    (wellFormed : before.contexts.WellFormed) :
    before.contexts.Keeps after.contexts ∧ after.contexts.WellFormed := by
  induction moves with
  | refl =>
      exact ⟨.refl _, wellFormed⟩
  | tail _ move inductionHypothesis =>
      exact (move.contexts inductionHypothesis.2).imp_left inductionHypothesis.1.trans

/-! ## Results -/

/-- While something is under way, there is no result. -/
def Unfinished (machine : Machine) : Prop := machine.frames ≠ [] → machine.result = none

theorem Move.unfinished (move : Move licence before after) (unfinished : before.Unfinished) :
    after.Unfinished := by
  intro running
  cases move with
  | quiet quiet =>
      rw [quiet.frames] at running
      exact (quiet.result running).trans (unfinished running)
  | push _ frames _ | drop _ frames | advance frames _ _ | jump frames _ _ =>
      exact unfinished (by simp [frames])
  | assign _ _ _ _ _ | store _ _ _ _ | makeBlock _ _ _ _ | makeClass _ _ _ _ _ _ =>
      exact unfinished running
  | call _ hasRoom _ _ _ _ =>
      exact unfinished hasRoom.running
  | leave suffix =>
      refine unfinished fun none => running ?_
      rw [none] at suffix
      exact List.suffix_nil.mp suffix
  | launch _ _ =>
      rfl

/-! ## Room on the stacks -/

/-- No stack is too large, and an activation that waits has room for the answer. -/
structure Bounded (machine : Machine) : Prop where
  limited : ∀ frame ∈ machine.frames, frame.stack.length ≤ machine.config.maxStackDepth
  waiting : ∀ frame ∈ machine.frames.tail, frame.stack.length < machine.config.maxStackDepth

theorem bounded_cons {machine : Machine} {current : Frame} {rest : List Frame}
    (frames : machine.frames = current :: rest) :
    machine.Bounded ↔ current.stack.length ≤ machine.config.maxStackDepth ∧
      ∀ frame ∈ rest, frame.stack.length < machine.config.maxStackDepth := by
  constructor
  · intro bounded
    have limited := bounded.limited
    have waiting := bounded.waiting
    rw [frames] at limited waiting
    exact ⟨limited current List.mem_cons_self, waiting⟩
  · rintro ⟨innermost, waiting⟩
    refine ⟨?_, ?_⟩
    · rw [frames]
      exact List.forall_mem_cons.mpr
        ⟨innermost, fun frame member => Nat.le_of_lt (waiting frame member)⟩
    · rw [frames]
      exact waiting

/-- Another state of the innermost activation. -/
theorem Bounded.replace {current changed : Frame} {rest : List Frame}
    (bounded : machine.Bounded) (frames : machine.frames = current :: rest)
    (few : changed.stack.length ≤ machine.config.maxStackDepth) :
    Bounded { machine with frames := changed :: rest } := by
  have waiting := ((bounded_cons frames).mp bounded).2
  exact (bounded_cons rfl).mpr ⟨few, waiting⟩

theorem Bounded.suffix {frames : List Frame} (bounded : machine.Bounded)
    (suffix : frames <:+ machine.frames) : Bounded { machine with frames } := by
  refine ⟨fun frame member => bounded.limited frame (suffix.mem member), fun frame member => ?_⟩
  obtain ⟨above, whole⟩ := suffix
  apply bounded.waiting frame
  rw [← whole]
  cases above with
  | nil =>
      exact member
  | cons _ _ =>
      exact List.mem_append_right _ (List.mem_of_mem_tail member)

/-- Those that wait below an activation have room. -/
theorem Bounded.hasRoom_below {current : Frame} {rest : List Frame} (bounded : machine.Bounded)
    (frames : machine.frames = current :: rest) (running : rest ≠ []) :
    HasRoom { machine with frames := rest } :=
  ⟨running, ((bounded_cons frames).mp bounded).2⟩

theorem HasRoom.bounded (hasRoom : machine.HasRoom) : machine.Bounded :=
  ⟨fun frame member => Nat.le_of_lt (hasRoom.room frame member),
    fun frame member => hasRoom.room frame (List.mem_of_mem_tail member)⟩

theorem Move.bounded (move : Move licence before after) (bounded : before.Bounded) :
    after.Bounded := by
  cases move with
  | quiet quiet =>
      refine ⟨?_, ?_⟩
      · rw [quiet.frames, quiet.config]
        exact bounded.limited
      · rw [quiet.frames, quiet.config]
        exact bounded.waiting
  | push value frames room =>
      exact bounded.replace frames (Nat.succ_le_of_lt room)
  | drop count frames =>
      have innermost := ((bounded_cons frames).mp bounded).1
      refine bounded.replace frames ?_
      simp only [List.length_drop]
      omega
  | advance frames _ _ | jump frames _ _ =>
      exact bounded.replace frames ((bounded_cons frames).mp bounded).1
  | assign _ _ _ _ _ | store _ _ _ _ | makeBlock _ _ _ _ | makeClass _ _ _ _ _ _ =>
      exact ⟨bounded.limited, bounded.waiting⟩
  | call _ hasRoom _ atStart _ _ =>
      refine (bounded_cons rfl).mpr ⟨?_, hasRoom.room⟩
      simp [atStart.stack]
  | leave suffix =>
      exact bounded.suffix suffix
  | launch _ _ =>
      refine (bounded_cons rfl).mpr ⟨Nat.zero_le _, ?_⟩
      simp

end Machine

end Missive
