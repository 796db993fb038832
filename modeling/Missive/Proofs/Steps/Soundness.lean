import Missive.Proofs.Steps.Execution

/-!
# Verified code stays verified

Only code that verification accepts is ever loaded, and all other code comes out of the constants of
code that runs: blocks out of nested units, methods out of class descriptors.  So every unit that a
machine can get at is one that verification accepts, also long after the program that brought it.

An operand that verification accepts selects what its instruction needs, except where only the run
can tell.
-/

namespace Missive

/-! ## The contexts around a context -/

/-- All contexts around a context, the nearest first. -/
inductive Arena.Around (arena : Arena) : ContextId → List ContextId → Prop
  | outermost {id : ContextId} {context : Context} : arena.get? id = some context →
      context.outer = none → Around arena id []
  | inside {id outer : ContextId} {context : Context} {around : List ContextId} :
      arena.get? id = some context → context.outer = some outer → Around arena outer around →
      Around arena id (outer :: around)

/-- A walk outward leaves the contexts exactly if it is longer than there are contexts around. -/
theorem Arena.resolve?_eq_some_none_iff {arena : Arena} {id : ContextId} {depth : Nat} :
    arena.resolve? id depth = some none ↔
      ∃ around, arena.Around id around ∧ around.length < depth := by
  induction depth generalizing id with
  | zero =>
      simp [Arena.resolve?]
  | succ depth inductionHypothesis =>
      unfold Arena.resolve?
      constructor
      · intro resolved
        obtain ⟨context, found, further⟩ := Option.bind_eq_some_iff.mp resolved
        cases isOuter : context.outer with
        | none =>
            exact ⟨[], .outermost found isOuter, Nat.succ_pos depth⟩
        | some outer =>
            simp only [isOuter] at further
            obtain ⟨around, isAround, short⟩ := inductionHypothesis.mp further
            exact ⟨outer :: around, .inside found isOuter isAround, Nat.succ_lt_succ short⟩
      · rintro ⟨around, isAround, short⟩
        cases isAround with
        | outermost found isOuter =>
            simp [found, isOuter]
        | inside found isOuter isAround =>
            have further := inductionHypothesis.mpr ⟨_, isAround, Nat.lt_of_succ_lt_succ short⟩
            simp [found, isOuter, further]

/-! ## Operands -/

/-- What verification leaves to the run: a constant that is code, and a variable of a context that
is not there. -/
inductive Instruction.Unchecked (constants : List Constant) (contexts : Arena)
    (context : ContextId) : Instruction → Prop
  | block {operand : Int32} {body : CodeUnit} : selected constants operand = some (.block body) →
      Unchecked constants contexts context ⟨.pushConstant, operand⟩
  | classDescriptor {operand : Int32} {descriptor : ClassDescriptor} :
      selected constants operand = some (.classDescriptor descriptor) →
      Unchecked constants contexts context ⟨.pushConstant, operand⟩
  | loadOuter {operand : Int32} {around : List ContextId} : contexts.Around context around →
      around.length < (unpack operand).2 →
      Unchecked constants contexts context ⟨.loadOuter, operand⟩
  | storeOuter {operand : Int32} {around : List ContextId} : contexts.Around context around →
      around.length < (unpack operand).2 →
      Unchecked constants contexts context ⟨.storeOuter, operand⟩

/-- A valid operand misses only where the run has to tell. -/
theorem Instruction.Valid.unchecked {constants : List Constant} {codeSize : Nat} {contexts : Arena}
    {context : ContextId} {instruction : Instruction}
    (valid : instruction.Valid constants codeSize)
    (misses : instruction.Misses constants contexts context) :
    instruction.Unchecked constants contexts context := by
  obtain ⟨opcode, operand⟩ := instruction
  unfold Instruction.Valid at valid
  unfold Instruction.Misses at misses
  cases opcode with
  | pushConstant =>
      obtain ⟨constant, found⟩ := valid
      rcases misses constant found with isBlock | isClass
      · obtain ⟨body, rfl⟩ := kindName_block_iff.mp isBlock
        exact .block found
      · obtain ⟨descriptor, rfl⟩ := kindName_classDescriptor_iff.mp isClass
        exact .classDescriptor found
  | loadOuter =>
      obtain ⟨around, isAround, short⟩ := Arena.resolve?_eq_some_none_iff.mp misses
      exact .loadOuter isAround short
  | storeOuter =>
      obtain ⟨around, isAround, short⟩ := Arena.resolve?_eq_some_none_iff.mp misses
      exact .storeOuter isAround short
  | loadClassVar | storeClassVar | loadGlobal | storeGlobal =>
      obtain ⟨name, found⟩ := valid
      exact (misses name found).elim
  | send | superSend =>
      obtain ⟨_, selector, found⟩ := valid
      exact (misses selector found).elim
  | defineClass =>
      obtain ⟨descriptor, found⟩ := valid
      exact (misses descriptor found).elim
  | makeClosure =>
      obtain ⟨_, body, found⟩ := valid
      exact (misses body found).elim
  | pop | dup | loadLocal | storeLocal | loadField | storeField | jump | jumpIfFalse | pushSelf
  | pushNil | pushTrue | pushFalse | newInstance | makeArray | makeDictionary | «return»
  | nonLocalReturn =>
      exact misses.elim

/-! ## Objects -/

/-- Verification accepts the code in the object. -/
def Object.Verified : Object → Prop
  | .block closure => closure.body.verify = .ok ()
  | .classObject definition =>
    ∀ method ∈ definition.methods ++ definition.classMethods, method.body.verify = .ok ()
  | .array _ | .dictionary _ | .record .. => True

theorem Object.verified_of_isPlain {object : Object} (plain : object.isPlain = true) :
    object.Verified := by
  cases object with
  | array _ | dictionary _ | record _ _ =>
      exact trivial
  | block _ | classObject _ =>
      cases plain

theorem Object.verified_cleared_iff {object : Object} :
    object.cleared.Verified ↔ object.Verified := by
  cases object <;> exact Iff.rfl

/-- Verification accepts the code in all objects. -/
def Store.Verified (store : Store) : Prop :=
  ∀ id object, store.get? id = some object → object.Verified

namespace Store.Verified

variable {store : Store}

theorem alloc (verified : store.Verified) {object : Object} (accepted : object.Verified) :
    (store.alloc object).2.Verified := by
  intro id found present
  rcases get?_alloc_cases present with rfl | was
  · exact accepted
  · exact verified id found was

theorem inherits {newer : Store} (verified : store.Verified) (inherits : store.Inherits newer) :
    newer.Verified := by
  intro id object found
  rcases inherits.origin id object found with ⟨before, was, same⟩ | ⟨_, plain⟩
  · have accepted := verified id before was
    rwa [← Object.verified_cleared_iff, ← same, Object.verified_cleared_iff] at accepted
  · exact Object.verified_of_isPlain plain

end Store.Verified

/-! ## Activations -/

/-- Verification accepts the code of the activation, and the activation has not left it. -/
structure Frame.Verified (frame : Frame) : Prop where
  code : frame.code.verify = .ok ()
  position : frame.ip ≤ frame.code.code.size

namespace Frame.Verified

variable {frame : Frame}

theorem constant (verified : frame.Verified) {constant : Constant}
    (member : constant ∈ frame.code.constants) : constant.Verified :=
  (CodeUnit.verify_eq_ok_iff.mp verified.code).2 constant member

theorem valid (verified : frame.Verified) {instruction : Instruction}
    (member : instruction ∈ frame.code.code.toList) :
    instruction.Valid frame.code.constants frame.code.code.size :=
  (CodeUnit.verify_eq_ok_iff.mp verified.code).1 instruction member

/-- A jump stays in the code. -/
theorem jump (verified : frame.Verified) {instruction : Instruction}
    (member : instruction ∈ frame.code.code.toList)
    (isTarget : instruction.opcode.operandKind = .target) :
    ({ frame with ip := Exec.elementCount instruction.operand } : Frame).Verified := by
  have valid := verified.valid member
  unfold Instruction.Valid at valid
  simp only [isTarget] at valid
  exact ⟨verified.code, valid.2⟩

end Frame.Verified

namespace Machine

/-- Verification accepts all code of the machine. -/
structure Verified (machine : Machine) : Prop where
  frames : ∀ frame ∈ machine.frames, frame.Verified
  store : machine.store.Verified

variable {licence : Licence} {machine before after : Machine}

theorem Verified.innermost {current : Frame} {rest : List Frame} (verified : machine.Verified)
    (frames : machine.frames = current :: rest) : current.Verified :=
  verified.frames current (frames ▸ List.mem_cons_self)

/-- Another state of the innermost activation. -/
theorem Verified.replace {current changed : Frame} {rest : List Frame}
    (verified : machine.Verified) (frames : machine.frames = current :: rest)
    (accepted : changed.Verified) : Verified { machine with frames := changed :: rest } := by
  refine ⟨List.forall_mem_cons.mpr ⟨accepted, fun frame member => ?_⟩, verified.store⟩
  exact verified.frames frame (frames ▸ List.mem_cons_of_mem current member)

/-- An activation starts in code that verification accepts. -/
theorem Verified.runs {frame : Frame} {outer : Option ContextId} {arguments : Nat}
    (verified : machine.Verified) (atStart : machine.AtStart frame)
    (runs : machine.Runs licence frame arguments outer) :
    frame.Verified := by
  have position : frame.ip ≤ frame.code.code.size := by
    rw [atStart.ip]
    exact Nat.zero_le _
  cases runs with
  | @method _ owner _ definition method _ found _ _ isCode _ _ _ =>
      obtain ⟨isClass, isMethod⟩ := Store.method?_of_lookup found
      have accepted := verified.store owner _ (Store.get?_of_class? isClass) method
        (ClassObject.mem_of_method? isMethod)
      exact ⟨isCode ▸ accepted, position⟩
  | @block id closure found _ isCode _ _ =>
      have accepted := verified.store id _ found
      exact ⟨isCode ▸ accepted, position⟩

theorem Move.verified (move : Move licence before after) (verified : before.Verified) :
    after.Verified := by
  cases move with
  | quiet quiet =>
      exact ⟨quiet.frames ▸ verified.frames, verified.store.inherits quiet.inherits⟩
  | assign _ _ _ _ _ | store _ _ _ _ =>
      exact ⟨verified.frames, verified.store⟩
  | push _ frames _ | drop _ frames =>
      have innermost := verified.innermost frames
      exact verified.replace frames ⟨innermost.code, innermost.position⟩
  | advance frames next _ =>
      have inside := (Array.getElem?_eq_some_iff.mp next).1
      exact verified.replace frames ⟨(verified.innermost frames).code, inside⟩
  | jump frames member isTarget =>
      exact verified.replace frames ((verified.innermost frames).jump member isTarget)
  | makeBlock _ frames member _ =>
      have accepted := (verified.innermost frames).constant member
      exact ⟨verified.frames, verified.store.alloc accepted⟩
  | makeClass superclass globals _ frames member _ =>
      have accepted := (verified.innermost frames).constant member
      exact ⟨verified.frames, verified.store.alloc accepted⟩
  | call _ _ _ atStart runs _ =>
      have accepted := verified.runs atStart runs
      exact ⟨List.forall_mem_cons.mpr ⟨accepted, verified.frames⟩, verified.store⟩
  | leave suffix =>
      exact ⟨fun frame member => verified.frames frame (suffix.mem member), verified.store⟩
  | launch accepted _ =>
      refine ⟨fun frame member => ?_, verified.store⟩
      cases List.mem_singleton.mp member
      exact ⟨accepted, Nat.zero_le _⟩

/-- At the start there is no code at all. -/
theorem verified_new (config : Config) (refusal : Option String) :
    (new config refusal).Verified := by
  have none : Store.empty.Verified := by
    intro id object found
    cases found
  have rootClass : (Object.classObject (ClassObject.root rootClassName)).Verified := by
    intro method member
    cases member
  have store : (new config refusal).store.Verified := none.alloc rootClass
  refine ⟨fun frame member => ?_, store⟩
  cases member

/-- The operand of the next instruction is one that verification cannot judge. -/
def Unchecked (machine : Machine) : Prop :=
  ∃ current rest instruction, machine.frames = current :: rest ∧
    current.code.code[current.ip]? = some instruction ∧
    instruction.Unchecked current.code.constants machine.contexts current.context

theorem Verified.unchecked (verified : machine.Verified) (amiss : machine.Amiss) :
    machine.Unchecked := by
  obtain ⟨current, rest, instruction, frames, next, misses⟩ := amiss
  obtain ⟨inside, isInstruction⟩ := Array.getElem?_eq_some_iff.mp next
  have member : instruction ∈ current.code.code.toList :=
    isInstruction ▸ Array.getElem_mem_toList inside
  have valid := (verified.innermost frames).valid member
  exact ⟨current, rest, instruction, frames, next, valid.unchecked misses⟩

/-- Verification is sound.  Whatever units a machine was asked to load and however far they have
run, all code that it can get at is accepted and no activation has left its code.  An operand is
reported as invalid only where verification could not judge it. -/
theorem verify_sound (config : Config) (refusal : Option String) (commands : List Command) :
    let machine := (new config refusal).after commands
    (∀ frame ∈ machine.frames,
        frame.code.verify = .ok () ∧ frame.ip ≤ frame.code.code.size) ∧
      (∀ closure, machine.HasClosure closure → closure.body.verify = .ok ()) ∧
      (∀ id definition, machine.store.class? id = some definition →
        ∀ method ∈ definition.methods ++ definition.classMethods, method.body.verify = .ok ()) ∧
      ∀ fault opcode operand, machine.step.2 = .error fault →
        fault.cause = .invalidOperand opcode operand → machine.Unchecked := by
  intro machine
  have verified : machine.Verified :=
    holds_after config refusal (verified_new config refusal) (fun move => move.verified) commands
  have bounded : machine.Bounded := bounded_after config refusal commands
  have alike : machine.Alike machine := alike_after config refusal commands
  refine ⟨fun frame member => ?_, fun closure hasClosure => ?_,
    fun id definition isClass => verified.store id _ (Store.get?_of_class? isClass),
    fun fault opcode operand failed isInvalid => ?_⟩
  · have accepted := verified.frames frame member
    exact ⟨accepted.code, accepted.position⟩
  · obtain ⟨id, found⟩ := hasClosure.isStored alike
    exact verified.store id _ found
  · have amiss := (moves_step alike bounded).2 fault failed (by rw [isInvalid]; rfl)
    exact verified.unchecked amiss

/-- Verification accepts a unit that pushes a nested unit, and the run reports the operand. -/
example :
    let unit : CodeUnit := ⟨#[⟨.pushConstant, 0⟩], [.block ⟨#[], []⟩]⟩
    unit.verify = .ok () ∧
      ((new {} none).after [.load unit]).step.2 =
        .error ⟨.invalidOperand .pushConstant 0, [⟨topLevelLabel, 0⟩]⟩ :=
  ⟨rfl, rfl⟩

end Machine

end Missive
