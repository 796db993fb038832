import Mathlib.Data.List.Forall2
import Missive.Machine.Machine
import Missive.Proofs.Memory.Arena
import Missive.Proofs.Object.Store

/-!
# Machines that correspond

Two machines that run the same program and collect at different times hold different garbage, and
the handles of their contexts differ, because freed places are used again.  The identities of
their objects agree: an identity is never used twice.

A link says what two machines have in common: the objects in use, each with its fixed part on
either side, and which handles stand for each other.  Everything that a running program can get
at is linked, and linked things look the same on both sides.

The activations of the two machines need not have the same numbers, and those of the programs
themselves need not run the same code, as long as it says the same.  A pairing tells how they go
together; it does not change while the machines run.
-/

namespace Missive

/-- Neither the code nor a block that it creates returns from its home. -/
inductive CodeUnit.Returnless : CodeUnit → Prop
  | intro {unit : CodeUnit} :
      (∀ instruction ∈ unit.code.toList, instruction.opcode ≠ .nonLocalReturn) →
      (∀ body, .block body ∈ unit.constants → Returnless body) → Returnless unit

/-- Where an activation stands in its code. -/
structure Standing where
  kind : BodyKind
  code : CodeUnit
  place : Nat
  home : FrameId

/-- The standing at the next place. -/
def Standing.next (standing : Standing) : Standing := { standing with place := standing.place + 1 }

def Frame.standing (frame : Frame) : Standing := ⟨frame.kind, frame.code, frame.ip, frame.home⟩

/-- How the activations of two machines go together. -/
structure Pairing where
  /-- The numbers that stand for each other. -/
  numbers : FrameId → FrameId → Prop
  unique : ∀ {left right other partner}, numbers left right → numbers other partner →
    (left = other ↔ right = partner)
  /-- The machines run the same program. -/
  shared : Prop
  /-- How two programs may stand that are not the same. -/
  places : Standing → Standing → Prop
  /-- The machines have taken the same number of steps. -/
  inStep : Prop

namespace Pairing

/-- The activations have the same numbers and run the same code. -/
def same : Pairing := ⟨Eq, by rintro _ _ _ _ rfl rfl; exact Iff.rfl, True, fun _ _ => False, True⟩

/-- The pairing seen from the other side. -/
def flip (pairing : Pairing) : Pairing where
  numbers left right := pairing.numbers right left
  unique paired others := (pairing.unique paired others).symm
  shared := pairing.shared
  places left right := pairing.places right left
  inStep := pairing.inStep

theorem flip_same : same.flip = same := by
  simp only [flip, same, eq_comm]

variable (pairing : Pairing)

/-- The homes of two activations of the code, or of two blocks with it.  They do not matter where
nothing returns to them. -/
def Homes (code : CodeUnit) (left right : FrameId) : Prop :=
  pairing.numbers left right ∨ code.Returnless

/-- Two activations are at the same place of the same code. -/
structure Together (left right : Standing) : Prop where
  code : right.code = left.code
  place : right.place = left.place
  homes : pairing.Homes left.code left.home right.home
  shared : left.kind = .topLevel → pairing.shared

/-- How two activations of the same kind stand. -/
inductive Stands (left right : Standing) : Prop
  | together : pairing.Together left right → Stands left right
  | apart : left.kind = .topLevel → pairing.places left right → Stands left right

variable {pairing}

theorem Homes.flip {code : CodeUnit} {left right : FrameId}
    (homes : pairing.Homes code left right) : pairing.flip.Homes code right left :=
  homes

theorem Together.sameCode {left right : Frame}
    (together : pairing.Together left.standing right.standing) : right.code = left.code :=
  together.code

theorem Together.samePlace {left right : Frame}
    (together : pairing.Together left.standing right.standing) : right.ip = left.ip :=
  together.place

theorem Together.next {left right : Standing} (together : pairing.Together left right) :
    pairing.Together left.next right.next :=
  ⟨together.code, congrArg (· + 1) together.place, together.homes, together.shared⟩

theorem Stands.flip {left right : Standing} (stands : pairing.Stands left right)
    (sameKind : right.kind = left.kind) : pairing.flip.Stands right left := by
  cases stands with
  | together together =>
      refine .together ⟨together.code.symm, together.place.symm, ?_, sameKind ▸ together.shared⟩
      rw [together.code]
      exact together.homes.flip
  | apart isProgram places =>
      exact .apart (sameKind.trans isProgram) places

theorem Homes.block {code body : CodeUnit} {left right : FrameId}
    (homes : pairing.Homes code left right) (isBlock : .block body ∈ code.constants) :
    pairing.Homes body left right := by
  rcases homes with paired | ⟨_, blocks⟩
  · exact Or.inl paired
  · exact Or.inr (blocks body isBlock)

end Pairing

/-- What two machines have in common. -/
structure Link where
  /-- The objects in use, with what is fixed about them on either side. -/
  objects : ObjectId → Object → Object → Prop
  /-- The handles that stand for each other. -/
  contexts : ContextId → ContextId → Prop
  pairing : Pairing

namespace Link

/-! ## Linked things -/

/-- The object is in use. -/
def Has (link : Link) (id : ObjectId) : Prop := ∃ left right, link.objects id left right

/-- The value refers only to objects in use. -/
def Knows (link : Link) (value : Value) : Prop := ∀ id ∈ value.references, link.Has id

/-- Two blocks that differ at most in the handles of their contexts and the numbers of their
homes. -/
structure Closures (link : Link) (left right : Closure) : Prop where
  same : right = { left with outer := right.outer, home := right.home }
  home : link.pairing.Homes left.body left.home right.home
  outer : link.contexts left.outer right.outer
  receiver : link.Knows left.receiver
  owner : ∀ id ∈ left.owner, link.Has id

/-- Two objects that differ at most in the handle of a context and the number of a home. -/
inductive Objects (link : Link) : Object → Object → Prop
  | block {left right : Closure} : link.Closures left right →
      Objects link (.block left) (.block right)
  | other {object : Object} : object.contexts = [] → (∀ id ∈ object.references, link.Has id) →
      Objects link object object

/-- Two stores in which the objects in use correspond. -/
structure Stores (link : Link) (left right : Store) : Prop where
  size : left.cells.size = right.cells.size
  linked : ∀ {id fixedLeft fixedRight}, link.objects id fixedLeft fixedRight →
    ∃ leftObject rightObject, left.get? id = some leftObject ∧ right.get? id = some rightObject ∧
      leftObject.cleared = fixedLeft ∧ rightObject.cleared = fixedRight ∧
      link.Objects leftObject rightObject

/-- The handles of the contexts around two contexts. -/
inductive Outers (link : Link) : Option ContextId → Option ContextId → Prop
  | none : Outers link none none
  | some {left right : ContextId} : link.contexts left right → Outers link (some left) (some right)

theorem Outers.partner {link : Link} {left : ContextId} {right : Option ContextId}
    (outers : link.Outers (.some left) right) : ∃ partner, link.contexts left partner := by
  cases outers with
  | some linked =>
      exact ⟨_, linked⟩

/-- Two contexts with the same local variables. -/
structure Contexts (link : Link) (left right : Context) : Prop where
  locals : left.locals = right.locals
  known : ∀ value ∈ left.locals, link.Knows value
  outers : link.Outers left.outer right.outer

/-- Two arenas in which the linked contexts correspond, each to one. -/
structure Arenas (link : Link) (left right : Arena) : Prop where
  leftWellFormed : left.WellFormed
  rightWellFormed : right.WellFormed
  linked : ∀ {leftId rightId}, link.contexts leftId rightId →
    ∃ leftContext rightContext, left.get? leftId = some leftContext ∧
      right.get? rightId = some rightContext ∧ link.Contexts leftContext rightContext
  leftUnique : ∀ {leftId other rightId}, link.contexts leftId rightId →
    link.contexts other rightId → leftId = other
  rightUnique : ∀ {leftId rightId other}, link.contexts leftId rightId →
    link.contexts leftId other → rightId = other

/-- A block in use, with what either side knows about it. -/
structure Blocks (link : Link) (left right : BlockRef) : Prop where
  id : left.id = right.id
  fixed : link.objects left.id (.block left.closure) (.block right.closure)

/-- Two loops at the same point. -/
inductive Loops (link : Link) : Iteration → Iteration → Prop
  | whileAlone {left right : BlockRef} (goOn inBody : Bool) : link.Blocks left right →
      Loops link (.whileLoop left none goOn inBody) (.whileLoop right none goOn inBody)
  | whileLoop {left right leftBody rightBody : BlockRef} (goOn inBody : Bool) :
      link.Blocks left right → link.Blocks leftBody rightBody →
      Loops link (.whileLoop left (some leftBody) goOn inBody)
        (.whileLoop right (some rightBody) goOn inBody)
  | forever {left right : BlockRef} : link.Blocks left right →
      Loops link (.forever left) (.forever right)
  | times {left right : BlockRef} (remaining : Nat) {receiver : Value} : link.Blocks left right →
      link.Knows receiver →
      Loops link (.times left remaining receiver) (.times right remaining receiver)
  | count {left right : BlockRef} (counter : Counter) {receiver : Value} : link.Blocks left right →
      link.Knows receiver →
      Loops link (.count left counter receiver) (.count right counter receiver)
  | each {left right : BlockRef} {walk : Walk Value} {receiver : Value} : link.Blocks left right →
      (∀ value ∈ walk.items, link.Knows value) → link.Knows receiver →
      Loops link (.each left walk receiver) (.each right walk receiver)
  | eachPair {left right : BlockRef} {walk : Walk (Value × Value)} {receiver : Value} :
      link.Blocks left right →
      (∀ pair ∈ walk.items, link.Knows pair.1 ∧ link.Knows pair.2) → link.Knows receiver →
      Loops link (.eachPair left walk receiver) (.eachPair right walk receiver)
  | collect {left right : BlockRef} {walk : Walk Value} {results : List Value} :
      link.Blocks left right → (∀ value ∈ walk.items, link.Knows value) →
      (∀ value ∈ results, link.Knows value) →
      Loops link (.collect left walk results) (.collect right walk results)
  | filter {left right : BlockRef} {walk : Walk Value} (keep : Bool) {results : List Value} :
      link.Blocks left right → (∀ value ∈ walk.items, link.Knows value) →
      (∀ value ∈ results, link.Knows value) →
      Loops link (.filter left walk keep results) (.filter right walk keep results)
  | fold {left right : BlockRef} {walk : Walk Value} {accumulator : Value} :
      link.Blocks left right → (∀ value ∈ walk.items, link.Knows value) →
      link.Knows accumulator →
      Loops link (.fold left walk accumulator) (.fold right walk accumulator)
  | detect {left right : BlockRef} {walk : Walk Value} {fallback : Option Value} :
      link.Blocks left right → (∀ value ∈ walk.items, link.Knows value) →
      (∀ value ∈ fallback, link.Knows value) →
      Loops link (.detect left walk fallback) (.detect right walk fallback)

/-- The loops that wait for the answers of two activations. -/
inductive Pending (link : Link) : Option Iteration → Option Iteration → Prop
  | none : Pending link none none
  | some {left right : Iteration} : link.Loops left right → Pending link (some left) (some right)

/-- Two activations that differ at most in their numbers, the handles of their contexts and their
code. -/
structure Frames (link : Link) (left right : Frame) : Prop where
  same : right =
    { left with
      id := right.id, home := right.home, code := right.code, ip := right.ip
      context := right.context, loop := right.loop }
  number : ∀ {leftNumber rightNumber}, link.pairing.numbers leftNumber rightNumber →
    (left.id = leftNumber ↔ right.id = rightNumber)
  stands : link.pairing.Stands left.standing right.standing
  stack : ∀ value ∈ left.stack, link.Knows value
  context : link.contexts left.context right.context
  receiver : link.Knows left.receiver
  owner : ∀ id ∈ left.owner, link.Has id
  loop : link.Pending left.loop right.loop

/-- Two machines that have the same in their memories, but for garbage and the handles of contexts.
What is under way does not matter, nor what the sessions know about programs. -/
structure Memories (link : Link) (left right : Machine) : Prop where
  stores : link.Stores left.store right.store
  arenas : link.Arenas left.contexts right.contexts
  globals : left.globals = right.globals
  globalValues : ∀ value ∈ left.globals.values, link.Knows value
  sessionContext : link.contexts left.sessionContext right.sessionContext
  output : left.output = right.output
  maxFrames : left.config.maxFrames = right.config.maxFrames
  maxSteps : left.config.maxSteps = right.config.maxSteps
  maxStackDepth : left.config.maxStackDepth = right.config.maxStackDepth

/-- Two machines that differ at most in their garbage, in the handles of their contexts, and in the
numbers of their activations. -/
structure Machines (link : Link) (left right : Machine) : Prop extends
    Memories link left right where
  frames : List.Forall₂ link.Frames left.frames right.frames
  /-- The numbers that are not given yet stand for each other in turn. -/
  numbers : ∀ count,
    link.pairing.numbers ⟨left.lastFrame + 1 + count⟩ ⟨right.lastFrame + 1 + count⟩
  steps : link.pairing.inStep → left.steps = right.steps
  unlimited : link.pairing.inStep ∨ left.config.maxSteps = none
  result : left.result = right.result
  resultValue : ∀ value ∈ left.result, link.Knows value

/-! ## Larger links -/

/-- The second link has everything of the first. -/
structure Within (earlier later : Link) : Prop where
  objects : ∀ {id left right}, earlier.objects id left right → later.objects id left right
  contexts : ∀ {left right}, earlier.contexts left right → later.contexts left right
  pairing : later.pairing = earlier.pairing

variable {link earlier later : Link}

namespace Within

theorem refl (link : Link) : Within link link := ⟨id, id, rfl⟩

theorem trans {first second third : Link} (earlier : Within first second)
    (later : Within second third) : Within first third :=
  ⟨fun linked => later.objects (earlier.objects linked),
    fun linked => later.contexts (earlier.contexts linked),
    later.pairing.trans earlier.pairing⟩

theorem has (within : Within earlier later) {id : ObjectId} (has : earlier.Has id) :
    later.Has id := by
  obtain ⟨left, right, linked⟩ := has
  exact ⟨left, right, within.objects linked⟩

theorem knows (within : Within earlier later) {value : Value} (knows : earlier.Knows value) :
    later.Knows value :=
  fun id member => within.has (knows id member)

theorem allKnown (within : Within earlier later) {values : List Value}
    (known : ∀ value ∈ values, earlier.Knows value) : ∀ value ∈ values, later.Knows value :=
  fun value member => within.knows (known value member)

theorem allPairsKnown (within : Within earlier later) {pairs : List (Value × Value)}
    (known : ∀ pair ∈ pairs, earlier.Knows pair.1 ∧ earlier.Knows pair.2) :
    ∀ pair ∈ pairs, later.Knows pair.1 ∧ later.Knows pair.2 :=
  fun pair member => ⟨within.knows (known pair member).1, within.knows (known pair member).2⟩

theorem closures (within : Within earlier later) {left right : Closure}
    (closures : earlier.Closures left right) : later.Closures left right :=
  ⟨closures.same, within.pairing ▸ closures.home, within.contexts closures.outer,
    within.knows closures.receiver, fun id member => within.has (closures.owner id member)⟩

theorem linkedObjects (within : Within earlier later) {left right : Object}
    (linked : earlier.Objects left right) : later.Objects left right := by
  cases linked with
  | block closures =>
      exact .block (within.closures closures)
  | other contextFree references =>
      exact .other contextFree fun id member => within.has (references id member)

theorem outers (within : Within earlier later) {left right : Option ContextId}
    (outers : earlier.Outers left right) : later.Outers left right := by
  cases outers with
  | none =>
      exact .none
  | some linked =>
      exact .some (within.contexts linked)

theorem linkedContexts (within : Within earlier later) {left right : Context}
    (linked : earlier.Contexts left right) : later.Contexts left right :=
  ⟨linked.locals, fun value member => within.knows (linked.known value member),
    within.outers linked.outers⟩

theorem blocks (within : Within earlier later) {left right : BlockRef}
    (blocks : earlier.Blocks left right) : later.Blocks left right :=
  ⟨blocks.id, within.objects blocks.fixed⟩

theorem loops (within : Within earlier later) {left right : Iteration}
    (loops : earlier.Loops left right) : later.Loops left right := by
  cases loops with
  | whileAlone goOn inBody condition =>
      exact .whileAlone goOn inBody (within.blocks condition)
  | whileLoop goOn inBody condition body =>
      exact .whileLoop goOn inBody (within.blocks condition) (within.blocks body)
  | forever body =>
      exact .forever (within.blocks body)
  | times remaining body receiver =>
      exact .times remaining (within.blocks body) (within.knows receiver)
  | count counter body receiver =>
      exact .count counter (within.blocks body) (within.knows receiver)
  | each body items receiver =>
      exact .each (within.blocks body) (within.allKnown items) (within.knows receiver)
  | eachPair body items receiver =>
      exact .eachPair (within.blocks body) (within.allPairsKnown items) (within.knows receiver)
  | collect body items results =>
      exact .collect (within.blocks body) (within.allKnown items) (within.allKnown results)
  | filter keep body items results =>
      exact .filter keep (within.blocks body) (within.allKnown items) (within.allKnown results)
  | fold body items accumulator =>
      exact .fold (within.blocks body) (within.allKnown items) (within.knows accumulator)
  | detect body items fallback =>
      exact .detect (within.blocks body) (within.allKnown items)
        fun value member => within.knows (fallback value member)

theorem pending (within : Within earlier later) {left right : Option Iteration}
    (pending : earlier.Pending left right) : later.Pending left right := by
  cases pending with
  | none =>
      exact .none
  | some loops =>
      exact .some (within.loops loops)

theorem frames (within : Within earlier later) {left right : Frame}
    (frames : earlier.Frames left right) : later.Frames left right :=
  ⟨frames.same, within.pairing ▸ frames.number, within.pairing ▸ frames.stands,
    within.allKnown frames.stack,
    within.contexts frames.context, within.knows frames.receiver,
    fun id member => within.has (frames.owner id member), within.pending frames.loop⟩

end Within

end Link

end Missive
