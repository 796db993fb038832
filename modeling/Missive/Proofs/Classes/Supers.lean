import Missive.Proofs.Classes.Ancestors
import Missive.Proofs.Fragments.Heights
import Missive.Proofs.Safety.Runs
import Missive.Proofs.Protocol.Understanding
import Missive.Proofs.Scopes.Parameters

/-!
# Messages to super

A message to `super` goes to the receiver of the running method, but the search for a method starts
above the class that has this method, whatever the class of the receiver is.  A block hands on the
class and the receiver of the method in which it was created to the blocks that are created in it.
So a message to `super` out of a block is answered as one from the method itself, also long after
the method has returned.

As every such message leads to a class further up, a chain of methods that call each other through
`super` ends at the latest below the top.
-/

namespace Missive

namespace Machine

variable {start machine : Machine} {commands : List Command}

/-! ## What a lineage has in common -/

/-- The activations belong to the same class and have the same receiver. -/
structure Akin (upper lower : Frame) : Prop where
  receiver : upper.receiver = lower.receiver
  owner : upper.owner = lower.owner
  classSide : upper.classSide = lower.classSide

/-- A block that is created has the receiver and the class of the activation. -/
theorem Creates.closure_eq {maker : Frame} {id : ObjectId} {closure : Closure}
    (creates : machine.Creates maker id closure) :
    ∃ body count, closure = maker.closure body count := by
  obtain ⟨current, rest, instruction, frames, rfl, next, isClosure⟩ := creates.executes
  have created := creates.created
  have quiet := machine.quiet_counted_tidied
  have old : ∀ {store : Store}, machine.store.Inherits store →
      store.get? id ≠ some (.block closure) := by
    intro store inherits found
    have was := inherits.block found
    rw [creates.isNew] at was
    cases was
  rcases step_makeClosure frames next isClosure with spent | failed | ⟨body, operands, _, made⟩
  · rw [spent] at created
    exact (old (.refl _) created).elim
  · rw [failed] at created
    exact (old quiet.inherits created).elim
  · rw [made, Store.get?_track, Store.get?_alloc] at created
    split at created
    · cases created
      exact ⟨body, _, rfl⟩
    · exact (old quiet.inherits created).elim

/-- All activations of a lineage are akin to the last one, which is no block. -/
theorem Lineage.exists_last {activation : Frame} {others : List Frame}
    (lineage : start.Lineage commands (activation :: others)) :
    ∃ last, (activation :: others).getLast? = some last ∧ last.kind ≠ .block ∧
      ∀ other ∈ activation :: others, Akin other last := by
  generalize isWhole : activation :: others = whole at lineage
  induction lineage generalizing activation others with
  | outermost notBlock =>
      cases isWhole
      refine ⟨_, rfl, notBlock, fun other member => ?_⟩
      cases List.mem_singleton.mp member
      exact ⟨rfl, rfl, rfl⟩
  | @inside _ maker _ _ _ _ _ _ creates _ calls _ inductionHypothesis =>
      cases isWhole
      obtain ⟨last, isLast, notBlock, akin⟩ := inductionHypothesis rfl
      refine ⟨last, by rw [List.getLast?_cons_cons, isLast], notBlock, ?_⟩
      obtain ⟨body, count, rfl⟩ := creates.closure_eq
      have shares := calls.shares
      have ofMaker := akin maker List.mem_cons_self
      exact List.forall_mem_cons.mpr ⟨⟨shares.receiver.symm.trans ofMaker.receiver,
        shares.owner.symm.trans ofMaker.owner, shares.classSide.symm.trans ofMaker.classSide⟩, akin⟩

end Machine

/-! ## The message -/

/-- On a stack with the receiver below the arguments, the arguments can be told apart. -/
theorem exists_arguments {taken further : Layout} {stack : List Value} {receiver : Value}
    (laidOut : List.Forall₂ (fun isReceiver value => isReceiver = true → value = receiver)
      (taken ++ true :: further) stack) :
    ∃ arguments operands : List Value, arguments.length = taken.length ∧
      stack = arguments.reverse ++ receiver :: operands := by
  have upper := List.forall₂_take_append _ _ _ laidOut.flip
  have lower := List.forall₂_drop_append _ _ _ laidOut.flip
  cases isLower : stack.drop taken.length with
  | nil =>
      rw [isLower] at lower
      cases lower
  | cons value operands =>
      rw [isLower] at lower
      obtain rfl := (List.forall₂_cons.mp lower).1 rfl
      refine ⟨(stack.take taken.length).reverse, operands, ?_, ?_⟩
      · rw [List.length_reverse]
        exact upper.length_eq
      · rw [List.reverse_reverse, ← isLower, List.take_append_drop]

/-- The message that is to be sent to `super` is there, and so is the class of the method. -/
theorem Machine.Ready.sends {machine : Machine} {current : Frame} {rest : List Frame}
    {instruction : Instruction} (ready : machine.Ready) (frames : machine.frames = current :: rest)
    (next : current.code.code[current.ip]? = some instruction)
    (isSuper : instruction.opcode = .superSend) :
    (∃ owner, current.owner = some owner) ∧ ∃ selector arguments operands,
      current.Sends instruction current.receiver selector arguments operands := by
  obtain ⟨setting, layout, poised⟩ := ready.poised frames
  obtain ⟨_, fits, _⟩ := poised.current.flows.next next
  obtain ⟨index, selector, taken, further, rfl, rfl, inClass, small, few, isName, arity⟩ :=
    fits.superSend_cases isSuper
  obtain ⟨arguments, operands, sameLength, stack⟩ := exists_arguments poised.current.stack
  have unpacked : Instruction.unpack (Instruction.packed .superSend index taken.length).operand =
      (index, taken.length) := Instruction.unpack_packedOperand small few
  refine ⟨Option.isSome_iff_exists.mp (poised.current.stands.owner inClass),
    selector, arguments, operands, ?_, ?_, arity.trans sameLength.symm, stack⟩
  · rw [unpacked]
    exact isName
  · rw [unpacked]
    exact sameLength.symm

/-- The class is the nearest one of those given that has a method for the selector. -/
def Nearest (classes : List (ObjectId × ClassObject)) (classSide : Bool) (selector : Selector)
    (owner : ObjectId) (definition : ClassObject) (method : MethodDescriptor) : Prop :=
  definition.method? classSide selector = some method ∧
    ∃ nearer further, classes = nearer ++ (owner, definition) :: further ∧
      ∀ entry ∈ nearer, entry.2.method? classSide selector = none

theorem nearest_of_findSome? {classes : List (ObjectId × ClassObject)} {classSide : Bool}
    {selector : Selector} {owner : ObjectId} {definition : ClassObject} {method : MethodDescriptor}
    (found : (classes.findSome? fun (owner, definition) =>
      (definition.method? classSide selector).map fun method => (owner, definition, method)) =
        some (owner, definition, method)) :
    Nearest classes classSide selector owner definition method := by
  obtain ⟨nearer, ⟨_, _⟩, further, whole, answered, none⟩ := List.findSome?_eq_some_iff.mp found
  obtain ⟨_, isFound, same⟩ := Option.map_eq_some_iff.mp answered
  cases same
  exact ⟨isFound, nearer, further, whole, fun entry member =>
    Option.map_eq_none_iff.mp (none entry member)⟩

namespace Exec

variable {machine : Machine} {current : Frame} {rest : List Frame}

/-- How a message to `super` ends, with the classes above that of the method, the nearest first.
The nearest one that has a method answers, and the universal protocol only where there is none. -/
inductive Climbs (classes : List (ObjectId × ClassObject)) (classSide : Bool) (receiver : Value)
    (selector : Selector) (arguments : List Value) (machine : Machine) :
    EStateM.Result Cause Machine StepState → Prop
  | entered {owner : ObjectId} {definition : ClassObject} {method : MethodDescriptor} :
      Nearest classes classSide selector owner definition method →
      machine.frames.length < machine.config.maxFrames →
      Climbs classes classSide receiver selector arguments machine
        (.ok .running (opened machine arguments none
          (Frame.ofMethod receiver owner definition method classSide)))
  | tooDeep {owner : ObjectId} {definition : ClassObject} {method : MethodDescriptor} :
      Nearest classes classSide selector owner definition method →
      machine.config.maxFrames ≤ machine.frames.length →
      Climbs classes classSide receiver selector arguments machine
        (.error (.callDepthExceeded machine.config.maxFrames) machine)
  | universal : (∀ entry ∈ classes, entry.2.method? classSide selector = none) →
      Climbs classes classSide receiver selector arguments machine
        (andGoOn (respondUniversally receiver selector arguments) machine)

theorem owner_of_some {opcode : Opcode} {id : ObjectId} (frames : machine.frames = current :: rest)
    (isOwner : current.owner = some id) : owner opcode machine = .ok id machine := by
  unfold owner
  rw [bind_of_ok (frame_of_cons frames), isOwner]
  rfl

/-- A message to `super` from a method of a class that is there. -/
theorem climbs_superSend {described : ClassDescriptor → Prop} {id : ObjectId}
    {definition : ClassObject} {classes : List (ObjectId × ClassObject)} {selector : Selector}
    {arguments : List Value} (receiver : Value)
    (frames : machine.frames = current :: rest) (grounded : machine.store.Grounded described)
    (isOwner : current.owner = some id)
    (isClass : machine.store.class? id = some definition)
    (whole : machine.store.lineage id = (id, definition) :: classes)
    (fits : selector.arity = arguments.length) :
    Climbs classes current.classSide receiver selector arguments machine
      (andGoOn (superSend receiver selector arguments) machine) := by
  have found := grounded.inheritedMethod?_eq isClass
  obtain ⟨above, sameWhole, inherited⟩ := found
  cases whole.symm.trans sameWhole
  have checked : checkArgumentCount selector arguments.length machine = .ok () machine := by
    unfold checkArgumentCount
    rw [if_neg (not_not_intro fits)]
    rfl
  have inherited := inherited current.classSide selector
  cases nearest : inheritedMethod? machine.store id current.classSide selector with
  | none =>
      have sent : superSend receiver selector arguments machine =
          respondUniversally receiver selector arguments machine := by
        refine (bind_of_ok checked).trans ((bind_of_ok (frame_of_cons frames)).trans ?_)
        refine (bind_of_ok (owner_of_some frames isOwner)).trans ?_
        rw [get_bind, nearest]
      rw [andGoOn_congr sent]
      rw [nearest] at inherited
      refine .universal fun entry member => ?_
      exact Option.map_eq_none_iff.mp (List.findSome?_eq_none_iff.mp inherited.symm entry member)
  | some entry =>
      obtain ⟨owner, lower, method⟩ := entry
      have sent : superSend receiver selector arguments machine =
          callMethod receiver owner lower method current.classSide arguments machine := by
        refine (bind_of_ok checked).trans ((bind_of_ok (frame_of_cons frames)).trans ?_)
        refine (bind_of_ok (owner_of_some frames isOwner)).trans ?_
        rw [get_bind, nearest]
      rw [nearest] at inherited
      have isNearest := nearest_of_findSome? inherited.symm
      have called := callMethod_eq receiver owner lower method current.classSide arguments machine
      rw [andGoOn_congr sent, andGoOn]
      by_cases deep : machine.config.maxFrames ≤ machine.frames.length
      · rw [if_pos deep] at called
        rw [bind_of_error called]
        exact .tooDeep isNearest deep
      · rw [if_neg deep] at called
        rw [bind_of_ok called]
        exact .entered isNearest (Nat.lt_of_not_le deep)

theorem andGoOn_bind_of_ok {α : Type} {x : Exec α} {f : α → Exec Unit} {answer : α}
    {reached : Machine} (answered : x machine = .ok answer reached) :
    andGoOn (x >>= f) machine = andGoOn (f answer) reached := by
  change EStateM.bind (EStateM.bind x f) _ machine = EStateM.bind (f answer) _ reached
  unfold EStateM.bind
  rw [answered]

/-- The machine in which a message is answered: the step is prepared, and the message is no longer
on the stack. -/
def taken (machine : Machine) (current : Frame) (rest : List Frame) (operands : List Value) :
    Machine :=
  { prepared machine current rest with
    frames := { current with ip := current.ip + 1, stack := operands } :: rest }

/-- A step that sends a message to `super`. -/
theorem climbs_step {described : ClassDescriptor → Prop} {id : ObjectId}
    {definition : ClassObject} {instruction : Instruction} {selector : Selector}
    {arguments operands : List Value} (frames : machine.frames = current :: rest)
    (next : current.code.code[current.ip]? = some instruction)
    (isSuper : instruction.opcode = .superSend)
    (within : ∀ limit, machine.config.maxSteps = some limit → machine.steps < limit)
    (sends : current.Sends instruction current.receiver selector arguments operands)
    (grounded : (prepared machine current rest).store.Grounded described)
    (isOwner : current.owner = some id)
    (isClass : (prepared machine current rest).store.class? id = some definition) :
    ∃ classes, (prepared machine current rest).store.lineage id = (id, definition) :: classes ∧
      Climbs classes current.classSide current.receiver selector arguments
        (taken machine current rest operands) (step machine) := by
  obtain ⟨classes, whole, _⟩ := grounded.inheritedMethod?_eq isClass
  refine ⟨classes, whole, ?_⟩
  have executes : execute instruction = andGoOn (takeMessage instruction >>= fun message =>
      superSend message.1 message.2.1 message.2.2) := by
    unfold execute
    rw [isSuper]
  have advanced : Frame.Sends { current with ip := current.ip + 1 } instruction current.receiver
      selector arguments operands := ⟨sends.selected, sends.count, sends.arity, sends.stack⟩
  rw [step_of_within frames next within, executes,
    andGoOn_bind_of_ok (takeMessage_of_sends rfl advanced)]
  have waiting : (taken machine current rest operands).frames =
      { current with ip := current.ip + 1, stack := operands } :: rest := rfl
  have climbs :=
    climbs_superSend current.receiver waiting grounded isOwner isClass whole sends.arity
  exact climbs

end Exec

/-! ## Runs -/

namespace Machine

variable {config : Config} {refusal : Option String} {commands : List Command} {machine : Machine}
  {current : Frame} {rest : List Frame} {instruction : Instruction}

/-- When an instruction is executed, the class to which the running code belongs is there. -/
theorem Alike.get?_owner {owner : ObjectId} (alike : machine.Alike machine)
    (frames : machine.frames = current :: rest) (isOwner : current.owner = some owner) :
    ∃ object, (Exec.prepared machine current rest).store.get? owner = some object := by
  obtain ⟨link, _, machines⟩ := alike.counted_tidied
  have linkedFrames := machines.frames
  rw [machine.quiet_counted_tidied.frames, frames] at linkedFrames
  cases linkedFrames with
  | cons linked _ =>
      obtain ⟨object, _, found, _⟩ := machines.stores.get (linked.owner owner isOwner)
      exact ⟨object, found⟩

/-- The last activation of a lineage runs a method of its class, if it has one. -/
theorem Lineage.exists_method {activation home : Frame} {others : List Frame} {owner : ObjectId}
    {store : Store} (lineage : (new config refusal).Lineage commands (activation :: others))
    (isUnderWay : activation ∈ ((new config refusal).after commands).activations)
    (isHome : (activation :: others).getLast? = some home) (notBlock : home.kind ≠ .block)
    (isOwner : home.owner = some owner)
    (preserves : ((new config refusal).after commands).store.Preserves store)
    (isThere : ∃ object, store.get? owner = some object) :
    (new config refusal).UnderWay commands home ∧ home.kind = .method ∧
      ∃ definition selector method, store.class? owner = some definition ∧
        definition.method? home.classSide selector = some method ∧ home.code = method.body := by
  have underWay : (new config refusal).UnderWay commands home := by
    rcases List.mem_cons.mp (List.mem_of_getLast? isHome) with rfl | further
    · exact ⟨commands, List.prefix_refl _, isUnderWay⟩
    · exact lineage.underWay home further
  obtain ⟨earlier, ⟨more, rfl⟩, member⟩ := id underWay
  have placed := ((placed_after config refusal earlier home member).preserves
    (preserves_after config refusal earlier more)).preserves preserves
  have isMethod : home.kind = .method := by
    cases kind : home.kind with
    | method =>
        rfl
    | block =>
        exact (notBlock kind).elim
    | topLevel =>
        cases (placed.program kind).symm.trans isOwner
  obtain ⟨_, same, _, ofClass⟩ := placed.method isMethod
  cases same.symm.trans isOwner
  obtain ⟨object, found⟩ := isThere
  obtain ⟨definition, selector, method, rfl, isFound, isCode⟩ := ofClass object found
  exact ⟨underWay, isMethod, definition, selector, method, Store.class?_of_get? found, isFound,
    isCode⟩

theorem grounded_prepared (config : Config) (refusal : Option String) (commands : List Command)
    (current : Frame) (rest : List Frame) :
    (Exec.prepared ((new config refusal).after commands) current rest).store.Grounded
      (Described commands) :=
  (quiet_counted_tidied _).inherits.grounded _ (sourced_after config refusal commands).store

/-- A message to `super` in a run.  The running code comes from a method of a class, and the message
goes to the classes above. -/
theorem exists_climbs {home : Frame} {others : List Frame} (compiled : LoadsCompiled commands)
    (orderly : (new config refusal).Orderly (commands ++ [.step]))
    (frames : ((new config refusal).after commands).frames = current :: rest)
    (next : current.code.code[current.ip]? = some instruction)
    (isSuper : instruction.opcode = .superSend)
    (within : ∀ limit, ((new config refusal).after commands).config.maxSteps = some limit →
      ((new config refusal).after commands).steps < limit)
    (lineage : (new config refusal).Lineage commands (current.fixed :: others))
    (isHome : (current.fixed :: others).getLast? = some home) :
    let start := new config refusal
    let machine := start.after commands
    start.UnderWay commands home ∧ home.kind = .method ∧ Akin current home ∧
      ∃ owner lower ancestors selector arguments operands,
        home.owner = some owner ∧
        (∃ own method, lower.method? home.classSide own = some method ∧ home.code = method.body) ∧
        current.Sends instruction home.receiver selector arguments operands ∧
        (Exec.prepared machine current rest).store.lineage owner = (owner, lower) :: ancestors ∧
        Exec.Climbs ancestors home.classSide home.receiver selector arguments
          (Exec.taken machine current rest operands) (Exec.step machine) := by
  intro start machine
  have running : machine.frames ≠ [] := by
    rw [frames]
    exact List.cons_ne_nil _ _
  have ready : machine.Ready := ready_after config refusal compiled orderly running
  obtain ⟨⟨owner, isOwner⟩, selector, arguments, operands, sends⟩ := ready.sends frames next isSuper
  obtain ⟨_, isLast, notBlock, akin⟩ := lineage.exists_last
  cases isLast.symm.trans isHome
  have akinToFixed := akin current.fixed List.mem_cons_self
  have akin : Akin current home :=
    ⟨akinToFixed.receiver, akinToFixed.owner, akinToFixed.classSide⟩
  have ownsHome : home.owner = some owner := akin.owner.symm.trans isOwner
  have innermost := fixed_mem_activations frames
  -- The machine holds on to the class of what it runs, so the class is still the one of the method.
  have isThere := (alike_after config refusal commands).get?_owner frames isOwner
  obtain ⟨underWay, isMethod, lower, own, method, isClass, isFound, isCode⟩ :=
    lineage.exists_method innermost isHome notBlock ownsHome
      machine.quiet_counted_tidied.inherits.preserves isThere
  obtain ⟨ancestors, whole, climbs⟩ := Exec.climbs_step frames next isSuper within sends
    (grounded_prepared config refusal commands current rest) isOwner isClass
  rw [akin.receiver] at sends climbs
  rw [akin.classSide] at climbs
  exact ⟨underWay, isMethod, akin, owner, lower, ancestors, selector, arguments, operands, ownsHome,
    ⟨own, method, isFound, isCode⟩, sends, whole, climbs⟩

end Machine

/-! ## Chains of messages to super -/

namespace Exec

/-- All activations were there before but for those of blocks. -/
def EntersBlocks (before frames : List Frame) : Prop :=
  ∀ frame ∈ frames, frame.fixed ∈ before.map Frame.fixed ∨ frame.kind = .block

variable {current : Frame} {rest frames : List Frame}

theorem Pushed.entersBlocks (pushed : Pushed current rest frames) :
    EntersBlocks (current :: rest) frames := by
  obtain ⟨value, rfl⟩ := pushed
  intro frame member
  have known : frame.fixed ∈
      List.map Frame.fixed ({ current with stack := value :: current.stack } :: rest) :=
    List.mem_map_of_mem member
  exact Or.inl known

theorem turns_enter_block {build : FrameId → Frame} (isBlock : ∀ id, (build id).kind = .block) :
    Turns (enter build) (current :: rest) fun _ => EntersBlocks (current :: rest) := by
  rintro machine _ _ same ⟨⟩
  dsimp only
  rw [same]
  exact List.forall_mem_cons.mpr
    ⟨Or.inr (isBlock _), fun frame member => Or.inl (List.mem_map_of_mem member)⟩

theorem turns_callBlock_block (block : BlockRef) (arguments : List Value)
    (loop : Option Iteration) :
    Turns (callBlock block arguments loop) (current :: rest) fun _ =>
      EntersBlocks (current :: rest) := by
  have called : Turns (do
      checkDepth
      let context ← newContext (some block.closure.outer) arguments
      enter (Frame.ofBlock block.closure loop context)) (current :: rest)
      fun _ => EntersBlocks (current :: rest) :=
    stays_checkDepth.bind fun _ => (stays_newContext _ _).bind fun _ =>
      turns_enter_block fun _ => rfl
  unfold callBlock
  dsimp only
  split
  · exact turns_throw_bind
  · exact called

theorem turns_perform_block (action : Action) :
    Turns (perform action) (current :: rest) fun _ => EntersBlocks (current :: rest) := by
  have answered : ∀ value, Turns (pushTracked value) (current :: rest) fun _ =>
      EntersBlocks (current :: rest) := fun value =>
    (turns_pushTracked value).mono fun _ _ pushed => pushed.entersBlocks
  cases action with
  | answer value =>
      exact answered value
  | call block arguments loop =>
      exact turns_callBlock_block block arguments loop
  | write text value =>
      exact (stays_write text).bind fun _ => answered value

/-- The universal protocol calls blocks, but no methods. -/
theorem turns_respondUniversally_block (receiver : Value) (selector : Selector)
    (arguments : List Value) :
    Turns (respondUniversally receiver selector arguments) (current :: rest) fun _ =>
      EntersBlocks (current :: rest) := by
  refine turns_get_bind fun machine _ => ?_
  dsimp only
  split
  · exact (stays_onStore _).bind turns_perform_block
  · exact turns_throw _

/-- The method that a message to `super` enters is that of a class above. -/
theorem Climbs.of_entered {machine reached : Machine} {classes : List (ObjectId × ClassObject)}
    {classSide : Bool} {receiver : Value} {selector : Selector} {arguments : List Value}
    {upper : Frame} (climbs : Climbs classes classSide receiver selector arguments machine
      (.ok .running reached)) (frames : machine.frames = current :: rest)
    (isNew : ∀ activation ∈ machine.activations, activation ≠ upper)
    (entered : upper ∈ reached.activations) (isMethod : upper.kind = .method) :
    reached.store = machine.store ∧ upper.receiver = receiver ∧ upper.classSide = classSide ∧
      ∃ entry ∈ classes, upper.owner = some entry.1 := by
  generalize outcome : (EStateM.Result.ok StepState.running reached :
    EStateM.Result Cause Machine StepState) = result at climbs
  cases climbs with
  | @entered owner definition method nearest _ =>
      cases outcome
      obtain ⟨_, nearer, further, rfl, _⟩ := nearest
      rcases List.mem_cons.mp entered with rfl | old
      · exact ⟨rfl, rfl, rfl, (owner, definition), by simp, rfl⟩
      · exact (isNew upper old rfl).elim
  | tooDeep _ _ =>
      cases outcome
  | universal _ =>
      obtain ⟨_, _, responded, same⟩ := bind_eq_ok.mp outcome.symm
      cases same
      obtain ⟨frame, member, rfl⟩ := List.mem_map.mp entered
      rcases turns_respondUniversally_block receiver selector arguments machine _ _ frames responded
        frame member with old | isBlock
      · rw [← frames] at old
        exact (isNew _ old rfl).elim
      · cases isMethod.symm.trans isBlock

end Exec

namespace Machine

/-- In the next step, a message to `super` out of the first method, or of a block that comes from
it, enters the second method. -/
structure SendsUp (start : Machine) (commands : List Command) (lower upper : Frame) : Prop where
  sends : ∃ current rest instruction others,
    (start.after commands).frames = current :: rest ∧
    current.code.code[current.ip]? = some instruction ∧ instruction.opcode = .superSend ∧
    start.Lineage commands (current.fixed :: others) ∧
    (current.fixed :: others).getLast? = some lower
  goesOn : (start.after commands).step.2 = .ok .running
  isNew : (start.after commands).lastFrame < upper.id.number
  entered : upper ∈ (start.after commands).step.1.activations
  kind : upper.kind = .method

/-- The second activation belongs to a class above that of the first one, and both have the same
receiver. -/
structure Ascends (start : Machine) (commands : List Command) (lower upper : Frame) : Prop where
  receiver : upper.receiver = lower.receiver
  classSide : upper.classSide = lower.classSide
  owners : ∃ below above, lower.owner = some below ∧ upper.owner = some above ∧
    start.Above commands below above

variable {config : Config} {refusal : Option String} {commands : List Command}
  {machine reached : Machine} {lower upper : Frame}

theorem Ascends.trans {middle : Frame}
    (first : (new config refusal).Ascends commands lower middle)
    (second : (new config refusal).Ascends commands middle upper) :
    (new config refusal).Ascends commands lower upper := by
  obtain ⟨below, between, isBelow, isBetween, ascends⟩ := first.owners
  obtain ⟨_, above, same, isAbove, ascendsFurther⟩ := second.owners
  cases same.symm.trans isBetween
  exact ⟨second.receiver.trans first.receiver, second.classSide.trans first.classSide,
    below, above, isBelow, isAbove, ascends.trans ascendsFurther⟩

theorem Ascends.later (ascends : (new config refusal).Ascends commands lower upper)
    (more : List Command) : (new config refusal).Ascends (commands ++ more) lower upper := by
  obtain ⟨below, above, isBelow, isAbove, isOlder, earlier, isEarlier, inherits⟩ := ascends.owners
  exact ⟨ascends.receiver, ascends.classSide, below, above, isBelow, isAbove, isOlder, earlier,
    isEarlier.trans (List.prefix_append _ _), inherits⟩

theorem exists_step_of_running {current : Frame} {rest : List Frame}
    (frames : machine.frames = current :: rest) (goesOn : machine.step.2 = .ok .running) :
    ∃ reached, Exec.step machine = .ok .running reached ∧ machine.step.1 = reached := by
  rw [step_of_cons frames] at goesOn ⊢
  cases outcome : Exec.step machine with
  | ok state reached =>
      rw [outcome] at goesOn
      cases goesOn
      exact ⟨reached, rfl, rfl⟩
  | error cause reached =>
      rw [outcome] at goesOn
      cases goesOn

/-- One message to `super`. -/
theorem SendsUp.ascends (compiled : LoadsCompiled commands)
    (orderly : (new config refusal).Orderly (commands ++ [.step]))
    (sendsUp : (new config refusal).SendsUp commands lower upper) :
    (new config refusal).Ascends (commands ++ [.step]) lower upper := by
  obtain ⟨current, rest, instruction, others, frames, next, isSuper, lineage, isLower⟩ :=
    sendsUp.sends
  have goesOn := sendsUp.goesOn
  have within : ∀ limit, ((new config refusal).after commands).config.maxSteps = some limit →
      ((new config refusal).after commands).steps < limit := by
    intro limit isLimit
    by_contra spent
    rw [step_of_cons frames, Exec.step_of_spent isLimit (Nat.le_of_not_lt spent)] at goesOn
    cases goesOn
  obtain ⟨reached, stepped, isReached⟩ := exists_step_of_running frames goesOn
  obtain ⟨_, _, _, owner, definition, ancestors, selector, arguments, operands, isOwner, _, _,
    whole, climbs⟩ := exists_climbs compiled orderly frames next isSuper within lineage isLower
  rw [stepped] at climbs
  have homed : ((new config refusal).after commands).Homed :=
    holds_after config refusal (homed_new config refusal) (fun move => move.homed) commands
  have isNew : ∀ activation ∈ (Exec.taken ((new config refusal).after commands) current rest
      operands).activations, activation ≠ upper := by
    rintro activation member rfl
    have old : activation ∈ ((new config refusal).after commands).activations := by
      rw [← activations_prepared frames]
      exact member
    exact Nat.not_lt.mpr (homed.issued activation old) sendsUp.isNew
  have entered := sendsUp.entered
  rw [isReached] at entered
  obtain ⟨sameStore, receiver, classSide, entry, isAbove, isUpper⟩ :=
    climbs.of_entered rfl isNew entered sendsUp.kind
  refine ⟨receiver, classSide, owner, entry.1, isOwner, isUpper, ?_, commands ++ [.step],
    List.prefix_refl _, ?_⟩
  · have grounded := (grounded_prepared config refusal commands current rest)
    exact grounded.index_lt_of_mem_above whole entry isAbove
  · have began : (new config refusal).after (commands ++ [.step]) = reached := by
      rw [after_append]
      exact isReached
    rw [began, sameStore, Store.inheritsFrom_iff]
    have member : entry.1 ∈ ((owner, definition) :: ancestors).map Prod.fst :=
      List.mem_map_of_mem (List.mem_cons_of_mem _ isAbove)
    rw [← whole] at member
    exact member

/-- Compiled programs are loaded and run in any order, each until it ends or fails.  A message to
`super` then comes out of a method of some class, directly or through blocks inside each other,
whether the method is still running or not.  It goes to the receiver of the method.  The nearest
class above that of the method that has a method for it on the same side answers, if there is room
for one more activation, and if no class above has one, the universal protocol does.

So where methods enter one another by such messages, every class is above those before it. -/
theorem supers_ascend (config : Config) (refusal : Option String) (commands : List Command)
    (compiled : LoadsCompiled commands) (orderly : (new config refusal).Orderly commands) :
    let start := new config refusal
    (∀ earlier later current rest instruction, commands = earlier ++ .step :: later →
      let machine := start.after earlier
      machine.frames = current :: rest → current.code.code[current.ip]? = some instruction →
      instruction.opcode = .superSend →
      (∀ limit, machine.config.maxSteps = some limit → machine.steps < limit) →
      (∃ others, start.Lineage earlier (current.fixed :: others)) ∧
      ∀ others home, start.Lineage earlier (current.fixed :: others) →
        (current.fixed :: others).getLast? = some home →
        start.UnderWay earlier home ∧ home.kind = .method ∧ Akin current home ∧
        ∃ owner lower ancestors selector arguments operands,
          home.owner = some owner ∧
          (∃ own method, lower.method? home.classSide own = some method ∧
            home.code = method.body) ∧
          current.Sends instruction home.receiver selector arguments operands ∧
          (Exec.prepared machine current rest).store.Ascent owner ((owner, lower) :: ancestors) ∧
          Exec.Climbs ancestors home.classSide home.receiver selector arguments
            (Exec.taken machine current rest operands) (Exec.step machine)) ∧
    ∀ methods : List Frame, methods.IsChain (fun lower upper => ∃ earlier later,
        commands = earlier ++ .step :: later ∧ start.SendsUp earlier lower upper) →
      methods.Pairwise (start.Ascends commands) := by
  intro start
  have upTo : ∀ {earlier later : List Command}, commands = earlier ++ .step :: later →
      LoadsCompiled earlier ∧ start.Orderly (earlier ++ [.step]) := by
    rintro earlier later rfl
    rw [List.append_cons] at orderly
    exact ⟨fun command member => compiled command (List.mem_append_left _ member),
      orderly.initial⟩
  refine ⟨fun earlier later current rest instruction split => ?_, fun methods chain => ?_⟩
  · intro machine frames next isSuper within
    obtain ⟨compiledSoFar, orderlySoFar⟩ := upTo split
    have innermost := fixed_mem_activations frames
    obtain ⟨others, _, descends⟩ :=
      (traceable_after config refusal (Reading.loads_blank earlier)).activations _ innermost
    refine ⟨⟨others, descends.lineage⟩, fun others home lineage isHome => ?_⟩
    obtain ⟨underWay, isMethod, akin, owner, lower, ancestors, selector, arguments, operands,
      isOwner, runs, sends, whole, climbs⟩ := exists_climbs compiledSoFar orderlySoFar frames next
        isSuper within lineage isHome
    have isClass := Store.class?_of_mem_lineage (whole ▸ List.mem_cons_self)
    have ascent := (grounded_prepared config refusal earlier current rest).ascent isClass
    rw [whole] at ascent
    exact ⟨underWay, isMethod, akin, owner, lower, ancestors, selector, arguments, operands,
      isOwner, runs, sends, ascent, climbs⟩
  · have isTrans : IsTrans Frame (start.Ascends commands) :=
      ⟨fun _ _ _ first second => first.trans second⟩
    refine List.isChain_iff_pairwise.mp (chain.imp fun lower upper => ?_)
    rintro ⟨earlier, later, split, sendsUp⟩
    obtain ⟨compiledSoFar, orderlySoFar⟩ := upTo split
    have ascends := SendsUp.ascends compiledSoFar orderlySoFar sendsUp
    rw [split, List.append_cons]
    exact ascends.later later

/-- Three classes.  The method of the lowest one answers a block that sends a message to `super`. -/
def towers : Program :=
  [.define ⟨"Top", some "Object", [], [], [⟨"height", [], [.return (.literal (.int 3))]⟩], []⟩,
    .define ⟨"Middle", some "Top", [], [],
      [⟨"height", [], [.return (.send .super "height" [])]⟩], []⟩,
    .define ⟨"Bottom", some "Middle", [], [],
      [⟨"height", [], [.return (.block [] [.expr (.send .super "height" [])])]⟩], []⟩,
    .expr (.send (.send (.send (.var "Bottom") "new" []) "height" []) "value" [])]

/-- The program after so many steps. -/
def towering (count : Nat) : List Command := .load towers.code :: List.replicate count .step

/-- After 13 steps, the block sends its message, and the method of the lowest class has ended.  The
message enters the method of the class in the middle, and that of this one the method at the top. -/
theorem supers_ascend_towers :
    towers.compile = .ok towers.code ∧ LoadsCompiled (towering 17) ∧
      (new {} none).Orderly (towering 17) ∧
      ((new {} none).after (towering 13)).currentInstruction? =
        some (1, .packed .superSend 0 0) ∧
      ∃ bottom middle top : Frame,
        bottom ∉ ((new {} none).after (towering 13)).activations ∧
        [bottom, middle, top].map Frame.owner = [some ⟨3⟩, some ⟨2⟩, some ⟨1⟩] ∧
        [bottom, middle, top].Pairwise ((new {} none).Ascends (towering 17)) := by
  have isCompiled : towers.compile = .ok towers.code := rfl
  have compiled : LoadsCompiled (towering 17) := by
    intro command member unit isUnit
    have isTowers : unit = towers.code := by
      rcases List.mem_cons.mp member with rfl | isStep
      · exact (Option.some.inj isUnit).symm
      · rw [List.eq_of_mem_replicate isStep] at isUnit
        cases isUnit
    exact ⟨.initial, (Session.initial.compile towers).1, towers,
      isTowers ▸ Prod.ext rfl isCompiled, by decide⟩
  have ran : (((new {} none).load towers.code).1.finish 16).2 = none :=
    Option.isNone_iff_eq_none.mp (by decide +kernel)
  have orderly : (new {} none).Orderly (towering 17) := orderly_of_finish (Prod.ext rfl ran)
  have goesOn : ∀ count < 16, ((new {} none).after (towering count)).step.2 = .ok .running :=
    goesOn_of_finish (Prod.ext rfl ran)
  obtain ⟨answers, ascends⟩ := supers_ascend {} none (towering 17) compiled orderly
  have next : ((new {} none).after (towering 13)).currentInstruction? =
      some (1, .packed .superSend 0 0) := by decide +kernel
  have nextMiddle : ((new {} none).after (towering 15)).currentInstruction? =
      some (1, .packed .superSend 0 0) := by decide +kernel
  have unlimited : ((new {} none).after (towering 13)).config.maxSteps = none := by decide +kernel
  let seen := fun activation : Frame => (activation.id.number, activation.kind, activation.owner)
  have inBlock : ((new {} none).after (towering 13)).activations.map seen =
      [(3, .block, some ⟨3⟩), (1, .topLevel, none)] := by decide +kernel
  have inMiddle : ((new {} none).after (towering 15)).activations.map seen =
      [(4, .method, some ⟨2⟩), (3, .block, some ⟨3⟩), (1, .topLevel, none)] := by decide +kernel
  have inTop : ((new {} none).after (towering 15)).step.1.activations.map seen =
      [(5, .method, some ⟨1⟩), (4, .method, some ⟨2⟩), (3, .block, some ⟨3⟩),
        (1, .topLevel, none)] := by decide +kernel
  obtain ⟨current, rest, frames, _, isNext⟩ := exists_current next
  obtain ⟨middle, further, framesMiddle, _, isNextMiddle⟩ := exists_current nextMiddle
  obtain ⟨top, _, isTop, seenTop, _⟩ := List.map_eq_cons_iff.mp inTop
  obtain ⟨⟨others, lineage⟩, answered⟩ :=
    answers (towering 13) (List.replicate 3 .step) current rest _ rfl frames isNext rfl
      fun limit isLimit => by rw [unlimited] at isLimit; cases isLimit
  obtain ⟨bottom, isBottom, _⟩ := lineage.exists_last
  obtain ⟨_, isMethod, akin, _⟩ := answered others bottom lineage isBottom
  have seenCurrent : seen current.fixed = (3, .block, some ⟨3⟩) := by
    unfold activations at inBlock
    rw [frames] at inBlock
    exact (List.cons.inj inBlock).1
  have seenMiddle : seen middle.fixed = (4, .method, some ⟨2⟩) := by
    unfold activations at inMiddle
    rw [framesMiddle] at inMiddle
    exact (List.cons.inj inMiddle).1
  simp only [seen, Prod.mk.injEq] at seenCurrent seenMiddle seenTop
  obtain ⟨_, _, isOwner⟩ := seenCurrent
  obtain ⟨isFourth, middleKind, middleOwner⟩ := seenMiddle
  obtain ⟨isFifth, topKind, topOwner⟩ := seenTop
  have first : (new {} none).SendsUp (towering 13) bottom middle.fixed := by
    have lastFrame : ((new {} none).after (towering 13)).lastFrame = 3 := by decide +kernel
    have lastFrameLater : ((new {} none).after (towering 14)).lastFrame = 4 := by decide +kernel
    refine ⟨⟨current, rest, _, others, frames, isNext, rfl, lineage, isBottom⟩,
      goesOn 13 (by decide), by omega, ?_, middleKind⟩
    have continues := (moves_after (alike_after {} none (towering 14))
      (bounded_after {} none (towering 14)) [.step]).continues
    exact continues.same middle.fixed (fixed_mem_activations framesMiddle)
      (by omega)
  have second : (new {} none).SendsUp (towering 15) middle.fixed top := by
    have lastFrame : ((new {} none).after (towering 15)).lastFrame = 4 := by decide +kernel
    refine ⟨⟨middle, further, _, [], framesMiddle, isNextMiddle, rfl, .outermost ?_, rfl⟩,
      goesOn 15 (by decide), by omega, isTop ▸ List.mem_cons_self, topKind⟩
    rw [middleKind]
    decide
  have pairwise := ascends [bottom, middle.fixed, top]
    (.cons_cons ⟨towering 13, List.replicate 3 .step, rfl, first⟩
      (.cons_cons ⟨towering 15, [.step], rfl, second⟩ (.singleton _)))
  refine ⟨isCompiled, compiled, orderly, next, bottom, middle.fixed, top, fun under => ?_, ?_,
    pairwise⟩
  · have member : seen bottom ∈ ((new {} none).after (towering 13)).activations.map seen :=
      List.mem_map_of_mem under
    rw [inBlock] at member
    simp [seen, isMethod] at member
  · rw [List.map_cons, List.map_cons, List.map_cons, middleOwner, topOwner, ← akin.owner]
    exact congrArg (· :: _) isOwner

end Machine

end Missive
