import Missive.Proofs.Compile.Slots
import Missive.Proofs.Scopes.Addressing

/-!
# Arguments and temporaries

A call puts its arguments into the first slots of a new context, in their order.  The compiler
numbers the names of a body: the parameters first, and then the temporaries that the body declares.
Both agree unless a parameter is repeated.  Then the repeated name gets one slot only, and every
name after it lies lower than its argument.

Where no parameter is repeated, a parameter shows the argument that was given for it and a temporary
shows `nil`, until something is assigned to them.
-/

namespace Missive

/-! ## Slots -/

namespace Scope

variable {scope : Scope} {name : String} {slot : Nat}

/-- Names that are declared come after those that are there. -/
theorem slot?_declareAll (scope : Scope) (declared : List String) (name : String) :
    (scope.declareAll declared).slot? name =
      (scope.slot? name).or
        (((newNames scope.names declared).idxOf? name).map (· + scope.names.length)) := by
  unfold slot?
  rw [names_declareAll]
  exact List.findIdx?_append

theorem slot?_declareAll_of_getElem? (nodup : scope.names.Nodup) {place : Nat}
    (isName : scope.names[place]? = some name) (declared : List String) :
    (scope.declareAll declared).slot? name = some place := by
  have here : scope.slot? name = some place := idxOf?_of_nodup nodup isName
  rw [slot?_declareAll, here, Option.some_or]

theorem le_slot_declareAll (isNew : name ∉ scope.names) {declared : List String}
    (found : (scope.declareAll declared).slot? name = some slot) : scope.names.length ≤ slot := by
  have missing : scope.slot? name = none := List.idxOf?_eq_none_iff.mpr isNew
  rw [slot?_declareAll, missing, Option.none_or] at found
  obtain ⟨further, _, rfl⟩ := Option.map_eq_some_iff.mp found
  exact Nat.le_add_left _ _

/-- The names of a body are numbered as its arguments exactly if no parameter is repeated. -/
theorem places_iff_nodup (kind : BodyKind) (parameters declared : List String) :
    (∀ place name, parameters[place]? = some name →
        ((Scope.ofParameters kind parameters).declareAll declared).slot? name = some place) ↔
      parameters.Nodup := by
  constructor
  · intro inPlace
    refine List.nodup_iff_getElem?_ne_getElem?.mpr fun first second earlier inside same => ?_
    have isSecond := List.getElem?_eq_getElem inside
    have firstPlace := inPlace first _ (same.trans isSecond)
    have secondPlace := inPlace second _ isSecond
    cases firstPlace.symm.trans secondPlace
    exact Nat.lt_irrefl _ earlier
  · intro nodup place name isName
    rw [ofParameters_eq nodup]
    exact slot?_declareAll_of_getElem? nodup isName declared

end Scope

/-! ## Calls -/

/-- An activation at the start of a method. -/
def Frame.ofMethod (receiver : Value) (owner : ObjectId) (definition : ClassObject)
    (method : MethodDescriptor) (classSide : Bool) (context : ContextId) (id : FrameId) : Frame :=
  { id, home := id, kind := .method, code := method.body, ip := 0, stack := [], context, receiver
    owner := some owner, classSide
    label := Exec.methodLabel definition.name classSide method.selector
    loop := none }

/-- An activation at the start of a block. -/
def Frame.ofBlock (closure : Closure) (loop : Option Iteration) (context : ContextId)
    (id : FrameId) : Frame :=
  { id, home := closure.home, kind := .block, code := closure.body, ip := 0, stack := [], context
    receiver := closure.receiver, owner := closure.owner, classSide := closure.classSide
    label := Exec.blockLabelStart ++ closure.origin
    loop }

namespace Exec

variable {machine reached : Machine} {arguments : List Value}

/-- The machine with a new activation and a new context, which holds the arguments. -/
def opened (machine : Machine) (arguments : List Value) (outer : Option ContextId)
    (build : ContextId → FrameId → Frame) : Machine :=
  let allocated := machine.contexts.alloc ⟨arguments.toArray, outer⟩
  { machine with
    contexts := allocated.2
    lastFrame := machine.lastFrame + 1
    frames := build allocated.1 ⟨machine.lastFrame + 1⟩ :: machine.frames }

theorem checkDepth_eq (machine : Machine) :
    checkDepth machine = if machine.config.maxFrames ≤ machine.frames.length then
        .error (.callDepthExceeded machine.config.maxFrames) machine
      else .ok () machine := by
  unfold checkDepth
  rw [get_bind]
  split <;> rfl

/-- A call fails if it is too deep, and opens an activation otherwise. -/
theorem checkDepth_bind_eq (arguments : List Value) (outer : Option ContextId)
    (build : ContextId → FrameId → Frame) (machine : Machine) :
    (do checkDepth; enter (build (← newContext outer arguments))) machine =
      if machine.config.maxFrames ≤ machine.frames.length then
        .error (.callDepthExceeded machine.config.maxFrames) machine
      else .ok () (opened machine arguments outer build) := by
  have checked := checkDepth_eq machine
  by_cases deep : machine.config.maxFrames ≤ machine.frames.length
  · rw [if_pos deep] at checked ⊢
    exact bind_of_error checked
  · rw [if_neg deep] at checked ⊢
    exact bind_of_ok checked

theorem callMethod_eq (receiver : Value) (owner : ObjectId) (definition : ClassObject)
    (method : MethodDescriptor) (classSide : Bool) (arguments : List Value) (machine : Machine) :
    callMethod receiver owner definition method classSide arguments machine =
      if machine.config.maxFrames ≤ machine.frames.length then
        .error (.callDepthExceeded machine.config.maxFrames) machine
      else .ok () (opened machine arguments none
        (Frame.ofMethod receiver owner definition method classSide)) :=
  checkDepth_bind_eq arguments none (Frame.ofMethod receiver owner definition method classSide)
    machine

theorem callBlock_eq (block : BlockRef) (loop : Option Iteration)
    (fits : arguments.length = block.closure.parameterCount) (machine : Machine) :
    callBlock block arguments loop machine =
      if machine.config.maxFrames ≤ machine.frames.length then
        .error (.callDepthExceeded machine.config.maxFrames) machine
      else .ok () (opened machine arguments (some block.closure.outer)
        (Frame.ofBlock block.closure loop)) := by
  unfold callBlock
  dsimp only
  rw [if_neg (not_not_intro fits)]
  exact checkDepth_bind_eq arguments _ (Frame.ofBlock block.closure loop) machine

/-- The effect is a call with the arguments. -/
inductive Call (arguments : List Value) : Exec Unit → Prop
  | method (receiver : Value) (owner : ObjectId) (definition : ClassObject)
      (method : MethodDescriptor) (classSide : Bool) :
      Call arguments (callMethod receiver owner definition method classSide arguments)
  | block (block : BlockRef) (loop : Option Iteration) :
      Call arguments (callBlock block arguments loop)

/-- A new activation is on top, and its context holds the arguments. -/
def Holding (machine reached : Machine) (arguments : List Value) : Prop :=
  ∃ frame outer, reached.frames = frame :: machine.frames ∧
    reached.contexts.get? frame.context = some ⟨arguments.toArray, outer⟩

theorem holding_opened (wellFormed : machine.contexts.WellFormed) (outer : Option ContextId)
    {build : ContextId → FrameId → Frame}
    (inContext : ∀ context id, (build context id).context = context) :
    Holding machine (opened machine arguments outer build) arguments := by
  refine ⟨_, outer, rfl, ?_⟩
  rw [inContext]
  exact Arena.get?_alloc_self wellFormed _

theorem Call.holding {effect : Exec Unit} (call : Call arguments effect)
    (wellFormed : machine.contexts.WellFormed) (done : effect machine = .ok () reached) :
    Holding machine reached arguments := by
  cases call with
  | method receiver owner definition method classSide =>
      rw [callMethod_eq] at done
      split at done
      · cases done
      · cases done
        exact holding_opened wellFormed none fun _ _ => rfl
  | block block loop =>
      by_cases fits : arguments.length = block.closure.parameterCount
      · rw [callBlock_eq block loop fits] at done
        split at done
        · cases done
        · cases done
          exact holding_opened wellFormed _ fun _ _ => rfl
      · have refused : callBlock block arguments loop machine =
            .error (.wrongArgumentCount (valueSelector arguments.length)
              block.closure.parameterCount arguments.length) machine := by
          unfold callBlock
          dsimp only
          rw [if_pos fits]
          rfl
        cases refused.symm.trans done

end Exec

/-! ## Runs -/

namespace Machine

variable {corpus : Corpus} {config : Config} {refusal : Option String} {commands : List Command}

/-- The values of the variables that an activation began with, if it is not a program.  Each has the
value that was assigned last, and until then that of an argument, or none. -/
theorem Started.load? {activation : Frame} {count : Nat}
    (started : (new config refusal).Started commands activation count)
    (notProgram : activation.kind ≠ .topLevel)
    (isLive : ((new config refusal).after commands).contexts.isLive activation.context = true) :
    ∃ earlier later arguments, commands = earlier ++ .step :: later ∧
      ((new config refusal).after earlier).Starts activation arguments ∧ arguments.size = count ∧
      ∀ slot, ((new config refusal).after commands).contexts.load? activation.context slot =
        some ((Arena.lastStored? activation.context slot
          (((new config refusal).after earlier).step.1.assignments later)).getD
            (arguments[slot]?.getD .nil)) := by
  obtain ⟨earlier, later, arguments, rfl, starts, size⟩ := started notProgram
  refine ⟨earlier, later, arguments, rfl, starts, size, fun slot => ?_⟩
  have split : earlier ++ .step :: later = (earlier ++ [.step]) ++ later :=
    List.append_cons earlier .step later
  have began : (new config refusal).after (earlier ++ [.step]) =
      ((new config refusal).after earlier).step.1 := after_append _ _ _
  have alike := alike_after config refusal (earlier ++ [.step])
  have bounded := bounded_after config refusal (earlier ++ [.step])
  have wellFormed := (traceable_after config refusal
    (Reading.loads_blank (earlier ++ [.step]))).wellFormed
  rw [split, after_append] at isLive ⊢
  rw [began] at alike bounded wellFormed isLive ⊢
  obtain ⟨_, found⟩ := starts.holds
  obtain ⟨_, assigned⟩ :=
    load?_after alike bounded wellFormed (Arena.issued_of_get? found) later isLive
  rw [assigned]
  unfold Arena.load?
  rw [found]
  cases Arena.lastStored? activation.context slot
    (((new config refusal).after earlier).step.1.assignments later) <;> rfl

/-- Scopes and calls agree on where arguments and temporaries are.  A call puts its arguments into
the first slots of a new context.  The compiler numbers the names of a body in the same way exactly
if no parameter is repeated, and then every temporary comes after the arguments.

Where programs run that repeat no parameter and have not too many names in a body, an instruction
for a local variable uses a slot in the context of the activation that declares it.  If that is no
program, the slot is the position of a parameter or lies behind all arguments.  Its value is the one
that was assigned to it last since the activation began, and before that the argument, or `nil`. -/
theorem arguments_in_their_slots (config : Config) (refusal : Option String) (corpus : Corpus)
    (commands : List Command) (compiles : corpus.Compiles commands) :
    let start := new config refusal
    let machine := start.after commands
    (∀ kind parameters declared,
        ((∀ place name, parameters[place]? = some name →
            ((Scope.ofParameters kind parameters).declareAll declared).slot? name = some place) ↔
          parameters.Nodup) ∧
        (parameters.Nodup → ∀ name slot, name ∉ parameters →
          ((Scope.ofParameters kind parameters).declareAll declared).slot? name = some slot →
          parameters.length ≤ slot)) ∧
      (∀ before reached arguments effect, before.contexts.WellFormed →
        Exec.Call arguments effect → effect before = .ok () reached →
        Exec.Holding before reached arguments) ∧
      ∀ current rest instruction, machine.frames = current :: rest →
        current.code.code[current.ip]? = some instruction →
        instruction.opcode ∈ [.loadLocal, .storeLocal, .loadOuter, .storeOuter] →
        (∀ limit, machine.config.maxSteps = some limit → machine.steps < limit) →
        ∃ others passage outer access name depth slot declaring activation,
          start.Lineage commands (current.fixed :: others) ∧
          Enacts corpus (current.fixed :: others) (passage :: outer) ∧
          (mentionsInBody passage.statements)[current.code.mentionsBefore current.ip]? =
            some (.use access name) ∧
          DeclaredAt (passage :: outer) name depth slot ∧
          (passage :: outer)[depth]? = some declaring ∧
          (current.fixed :: others)[depth]? = some activation ∧
          Exec.step machine = Exec.andGoOn (Exec.useSlot access activation.context slot)
            (Exec.prepared machine current rest) ∧
          (declaring.kind ≠ .topLevel →
            (∀ place, declaring.given[place]? = some name → slot = place) ∧
            (name ∉ declaring.given → declaring.given.length ≤ slot) ∧
            ∃ earlier later arguments, commands = earlier ++ .step :: later ∧
              (start.after earlier).Starts activation arguments ∧
              arguments.size = declaring.given.length ∧
              ∀ other,
                (Exec.prepared machine current rest).contexts.load? activation.context other =
                some ((Arena.lastStored? activation.context other
                  ((start.after earlier).step.1.assignments later)).getD
                    (arguments[other]?.getD .nil))) := by
  intro start machine
  refine ⟨fun kind parameters declared => ⟨Scope.places_iff_nodup kind parameters declared,
    fun nodup name slot isTemporary found => ?_⟩,
    fun before reached arguments effect wellFormed call done => call.holding wellFormed done,
    fun current rest instruction frames next isLocal within => ?_⟩
  · rw [Scope.ofParameters_eq nodup] at found
    exact Scope.le_slot_declareAll isTemporary found
  · obtain ⟨others, passage, outer, access, name, depth, slot, activation, descends, _, isMention,
      declaredAt, atDepth, step, isLive⟩ := exists_access compiles frames next isLocal within
    obtain ⟨declaring, isDeclaring, found⟩ := declaredAt.declared
    refine ⟨others, passage, outer, access, name, depth, slot, declaring, activation,
      descends.lineage, descends.covers.enacts, isMention, declaredAt, isDeclaring, atDepth, step,
      fun notProgram => ?_⟩
    have isActivation : activation.kind ≠ .topLevel := by
      obtain ⟨enacting, isEnacting, sameKind⟩ := descends.covers.enacts.getElem? isDeclaring
      cases isEnacting.symm.trans atDepth
      rwa [sameKind]
    have nodup : declaring.given.Nodup := by
      obtain ⟨_, _, same, rendition⟩ := descends.covers.enacts.rendition
      cases same
      have contained := rendition.around declaring (List.mem_of_getElem? isDeclaring)
      exact (corpus.wellNamed declaring contained).1 notProgram
    have quiet := machine.quiet_counted_tidied
    have issued : machine.contexts.Issued activation.context :=
      descends.threads.issued _ (List.mem_map_of_mem (List.mem_of_getElem? atDepth))
    obtain ⟨isLiveBefore, same⟩ := quiet.contexts.load? issued isLive
    let parameters : Scope := ⟨declaring.kind, declaring.given⟩
    refine ⟨fun place isName => ?_, fun isTemporary => ?_, ?_⟩
    · have named : parameters.names[place]? = some name := isName
      have inPlace : declaring.slot? name = some place :=
        Scope.slot?_declareAll_of_getElem? nodup named (declaredFirst declaring.statements)
      exact Option.some.inj (found.symm.trans inPlace)
    · have isNew : name ∉ parameters.names := isTemporary
      exact Scope.le_slot_declareAll isNew found
    · obtain ⟨earlier, later, arguments, split, starts, size, values⟩ :=
        (descends.started_getElem? atDepth isDeclaring).load? isActivation isLiveBefore
      exact ⟨earlier, later, arguments, split, starts, size,
        fun other => (same other).trans (values other)⟩

/-- A block of two parameters that declares a temporary and shows it. -/
def temporary : Program :=
  [.expr (.send (.block ["a", "b"] [.declare ["t"], .expr (.var "t")]) "value:value:"
    [.literal (.int 1), .literal (.int 2)])]

/-- The passages of the program by itself. -/
def temporaryCorpus : Corpus := ⟨(· ∈ temporary.passages .initial), by decide⟩

/-- After 4 steps the block has been called.  Its temporary lies behind both arguments. -/
theorem arguments_in_their_slots_temporary :
    let commands := .load temporary.code :: List.replicate 4 .step
    let machine := (new {} none).after commands
    temporary.compile = .ok temporary.code ∧ temporaryCorpus.Compiles commands ∧
      machine.currentInstruction? = some (0, .indexed .loadLocal 2) ∧
      machine.step.1.operands = [.nil] ∧
      ∃ current rest earlier later arguments, machine.frames = current :: rest ∧
        commands = earlier ++ .step :: later ∧
        ((new {} none).after earlier).Starts current.fixed arguments ∧ arguments.size = 2 ∧
        Exec.step machine =
          Exec.andGoOn (Exec.loadSlot current.context 2) (Exec.prepared machine current rest) := by
  intro commands machine
  have compiled : temporary.compile = .ok temporary.code := rfl
  have compiles : temporaryCorpus.Compiles commands := by
    intro unit loaded
    have isUnit : unit = temporary.code := by
      simpa [commands] using loaded
    exact ⟨.initial, (Session.initial.compile temporary).1, temporary,
      isUnit ▸ Prod.ext rfl compiled, fun _ member => member⟩
  have next : machine.currentInstruction? = some (0, .indexed .loadLocal 2) := by decide +kernel
  have kinds : machine.frames.map Frame.kind = [.block, .topLevel] := by decide +kernel
  refine ⟨compiled, compiles, next, by decide +kernel, ?_⟩
  obtain ⟨current, rest, frames, isFirst, isNext⟩ := exists_current next
  obtain ⟨others, passage, outer, access, name, depth, slot, declaring, activation, _, enacts,
    isMention, declaredAt, isDeclaring, atDepth, step, inPlace⟩ :=
      (arguments_in_their_slots {} none temporaryCorpus commands compiles).2.2 current rest _
        frames isNext (by decide) nofun
  have isBlock : current.kind = .block := by
    rw [frames] at kinds
    exact (List.cons.inj kinds).1
  have isPassage : passage = ⟨.block, ["a", "b"], [.declare ["t"], .expr (.var "t")]⟩ := by
    obtain ⟨_, _, same, rendition⟩ := enacts.rendition
    cases same
    have listed : passage ∈ [⟨.topLevel, [], temporary⟩,
        ⟨.block, ["a", "b"], [.declare ["t"], .expr (.var "t")]⟩] :=
      rendition.around passage List.mem_cons_self
    cases enacts with
    | cons sameKind _ _ =>
        simp only [List.mem_cons, List.not_mem_nil, or_false] at listed
        rcases listed with rfl | rfl
        · cases sameKind.symm.trans isBlock
        · rfl
  subst isPassage
  rw [isFirst] at isMention
  cases isMention
  obtain ⟨rfl, rfl⟩ : depth = 0 ∧ slot = 2 := by
    obtain ⟨found, isFound, isSlot⟩ := declaredAt.declared
    cases depth with
    | zero =>
        cases isFound
        cases isSlot
        exact ⟨rfl, rfl⟩
    | succ further =>
        have here : "t" ∉ Passage.names ⟨.block, ["a", "b"], [.declare ["t"], .expr (.var "t")]⟩ :=
          declaredAt.innermost _ List.mem_cons_self
        exact (here (by decide)).elim
  cases isDeclaring
  cases atDepth
  obtain ⟨_, _, earlier, later, arguments, split, starts, size, _⟩ := inPlace nofun
  exact ⟨current, rest, earlier, later, arguments, frames, split, starts, size, step⟩

end Machine

end Missive
