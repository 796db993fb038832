import Missive.Proofs.Steps.Execution

/-!
# Returns out of blocks

A return in a block ends the activation in which the block was created, its home.  The block may
have left that activation long ago, and the activation may be gone.

Activations get ascending numbers that are never given again.  So the number of a home stands for
one activation for ever: while the activation is under way it is the only one with the number, and
once it has ended nothing has the number any more.
-/

namespace Missive

/-- What stays the same while an activation is under way. -/
def Frame.fixed (frame : Frame) : Frame := { frame with ip := 0, stack := [] }

namespace Machine

/-- The activations under way, without their progress. -/
def activations (machine : Machine) : List Frame := machine.frames.map Frame.fixed

variable {licence : Licence} {machine before after earlier later : Machine}

/-! ## How activations come and go -/

/-- What one move does to the activations. -/
inductive Turn (licence : Licence) (before after : Machine) : Prop
  | keep : after.lastFrame = before.lastFrame → after.activations <:+ before.activations →
      Turn licence before after
  | enter {frame : Frame} {outer : Option ContextId} (locals : Array Value) :
      before.frames ≠ [] → before.AtStart frame →
      before.Runs licence frame locals.size outer →
      frame.context = (before.contexts.alloc ⟨locals, outer⟩).1 →
      after.contexts = (before.contexts.alloc ⟨locals, outer⟩).2 →
      after.lastFrame = before.lastFrame + 1 →
      after.activations = frame.fixed :: before.activations → Turn licence before after
  | begin {frame : Frame} : before.Ground licence frame.context after.contexts →
      frame.id = ⟨before.lastFrame + 1⟩ → frame.home = frame.id →
      frame.kind = .topLevel → frame.loop = none → frame.owner = none →
      after.lastFrame = before.lastFrame + 1 → after.activations = [frame.fixed] →
      Turn licence before after

/-- The same activations, whatever has happened to the innermost one. -/
theorem turn_replace {current changed : Frame} {rest : List Frame}
    (frames : machine.frames = current :: rest) (same : changed.fixed = current.fixed) :
    Turn licence machine { machine with frames := changed :: rest } := by
  refine .keep rfl ?_
  unfold activations
  rw [frames, List.map_cons, List.map_cons, same]

theorem Move.turn (move : Move licence before after) : Turn licence before after := by
  cases move with
  | quiet quiet =>
      refine .keep quiet.lastFrame ?_
      unfold activations
      rw [quiet.frames]
  | push _ frames _ | drop _ frames | advance frames _ _ | jump frames _ _ =>
      exact turn_replace frames rfl
  | assign _ _ _ _ _ | store _ _ _ _ | makeBlock _ _ _ _ | makeClass _ _ _ _ _ _ =>
      exact .keep rfl (List.suffix_refl _)
  | call locals hasRoom _ atStart runs isContext =>
      exact .enter locals hasRoom.running atStart runs isContext rfl rfl rfl
  | leave suffix =>
      exact .keep rfl (suffix.map Frame.fixed)
  | launch _ ground =>
      exact .begin ground rfl rfl rfl rfl rfl rfl rfl

/-- A block that is there after a move was there before, or it was created by an activation and
shares the home of that one. -/
theorem Move.block_origin (move : Move licence before after) {id : ObjectId} {closure : Closure}
    (found : after.store.get? id = some (.block closure)) :
    before.store.get? id = some (.block closure) ∨
      ∃ frame ∈ before.frames, closure.home = frame.home := by
  cases move with
  | quiet quiet =>
      rcases quiet.inherits.origin id _ found with ⟨object, was, same⟩ | ⟨_, plain⟩
      · rw [Object.eq_block_of_cleared same.symm] at was
        exact Or.inl was
      · cases plain
  | @makeBlock current rest created _ frames _ shares =>
      rcases Store.get?_alloc_cases found with new | was
      · cases new
        exact Or.inr ⟨current, frames ▸ List.mem_cons_self, shares.home⟩
      · exact Or.inl was
  | makeClass _ _ _ _ _ _ =>
      rcases Store.get?_alloc_cases found with new | was
      · cases new
      · exact Or.inl was
  | assign _ _ _ _ _ | store _ _ _ _ | push _ _ _ | drop _ _ | advance _ _ _ | jump _ _ _
  | call _ _ _ _ _ _ | leave _ | launch _ _ =>
      exact Or.inl found

/-! ## Numbers are not given again -/

/-- What was numbered before is what it was. -/
structure Continues (earlier later : Machine) : Prop where
  issued : earlier.lastFrame ≤ later.lastFrame
  same : ∀ activation ∈ later.activations, activation.id.number ≤ earlier.lastFrame →
    activation ∈ earlier.activations

theorem Continues.refl (machine : Machine) : machine.Continues machine :=
  ⟨Nat.le_refl _, fun _ member _ => member⟩

theorem Continues.trans (first : earlier.Continues machine) (second : machine.Continues later) :
    earlier.Continues later := by
  refine ⟨Nat.le_trans first.issued second.issued, fun activation member old => ?_⟩
  have between := second.same activation member (Nat.le_trans old first.issued)
  exact first.same activation between old

theorem Turn.continues (turn : Turn licence before after) : before.Continues after := by
  cases turn with
  | keep lastFrame suffix =>
      exact ⟨lastFrame.ge, fun activation member _ => suffix.mem member⟩
  | enter _ _ atStart _ _ _ lastFrame entered =>
      refine ⟨by omega, fun activation member old => ?_⟩
      rw [entered] at member
      rcases List.mem_cons.mp member with rfl | below
      · simp only [Frame.fixed, atStart.id] at old
        omega
      · exact below
  | begin _ number _ _ _ _ lastFrame begun =>
      refine ⟨by omega, fun activation member old => ?_⟩
      rw [begun] at member
      cases List.mem_singleton.mp member
      simp only [Frame.fixed, number] at old
      omega

theorem Moves.continues (moves : Moves licence earlier later) : earlier.Continues later :=
  moves.keep (fun move continues => continues.trans move.turn.continues) (Continues.refl _)

/-! ## The order of activations -/

/-- Activations stand above older ones, and a program below everything that it has started. -/
structure Ordered (machine : Machine) : Prop where
  descending : machine.activations.Pairwise fun upper lower => lower.id.number < upper.id.number
  issued : ∀ activation ∈ machine.activations, activation.id.number ≤ machine.lastFrame
  bottom : ∀ above activation below, machine.activations = above ++ activation :: below →
    (activation.kind = .topLevel ↔ below = [])
  own : ∀ activation ∈ machine.activations, activation.kind ≠ .block →
    activation.home = activation.id ∧ activation.loop = none

theorem Ordered.suffix (ordered : before.Ordered) (lastFrame : after.lastFrame = before.lastFrame)
    (suffix : after.activations <:+ before.activations) : after.Ordered := by
  refine ⟨ordered.descending.sublist suffix.sublist, fun activation member => ?_,
    fun above activation below whole => ?_,
    fun activation member => ordered.own activation (suffix.mem member)⟩
  · rw [lastFrame]
    exact ordered.issued activation (suffix.mem member)
  · obtain ⟨ended, isBefore⟩ := suffix
    rw [whole, ← List.append_assoc] at isBefore
    exact ordered.bottom (ended ++ above) activation below isBefore.symm

theorem Runs.kind_ne_topLevel {frame : Frame} {outer : Option ContextId} {arguments : Nat}
    (runs : machine.Runs licence frame arguments outer) :
    frame.kind ≠ .topLevel := by
  cases runs with
  | method _ _ _ kind _ _ _ _ | block _ kind _ _ _ =>
      rw [kind]
      decide

theorem Ordered.enter {frame : Frame} {outer : Option ContextId} {arguments : Nat}
    (ordered : before.Ordered) (running : before.frames ≠ []) (atStart : before.AtStart frame)
    (runs : before.Runs licence frame arguments outer)
    (lastFrame : after.lastFrame = before.lastFrame + 1)
    (entered : after.activations = frame.fixed :: before.activations) : after.Ordered := by
  have number : frame.fixed.id.number = before.lastFrame + 1 := by
    simp only [Frame.fixed, atStart.id]
  constructor
  · rw [entered, List.pairwise_cons]
    refine ⟨fun lower member => ?_, ordered.descending⟩
    have old := ordered.issued lower member
    omega
  · rw [entered, List.forall_mem_cons]
    refine ⟨by omega, fun lower member => ?_⟩
    have old := ordered.issued lower member
    omega
  · intro above activation below whole
    rw [entered] at whole
    cases above with
    | nil =>
        cases whole
        have notAlone : before.activations ≠ [] := by
          simpa [activations] using running
        exact iff_of_false runs.kind_ne_topLevel notAlone
    | cons _ above =>
        exact ordered.bottom above activation below (List.cons.inj whole).2
  · rw [entered, List.forall_mem_cons]
    refine ⟨fun notBlock => ?_, ordered.own⟩
    cases runs with
    | method _ _ _ _ _ isHome loop _ =>
        exact ⟨isHome, loop⟩
    | block _ isBlock _ _ _ =>
        exact (notBlock isBlock).elim

theorem Turn.ordered (turn : Turn licence before after) (ordered : before.Ordered) :
    after.Ordered := by
  cases turn with
  | keep lastFrame suffix =>
      exact ordered.suffix lastFrame suffix
  | enter _ running atStart runs _ _ lastFrame entered =>
      exact ordered.enter running atStart runs lastFrame entered
  | @begin frame _ number isHome isTopLevel loop _ lastFrame begun =>
      constructor
      · rw [begun]
        exact List.pairwise_singleton _ _
      · intro activation member
        rw [begun] at member
        cases List.mem_singleton.mp member
        simp only [Frame.fixed, number]
        omega
      · intro above activation below whole
        rw [begun] at whole
        cases above with
        | nil =>
            cases whole
            exact iff_of_true isTopLevel rfl
        | cons _ above =>
            exact absurd (List.cons.inj whole).2 (by simp)
      · intro activation member _
        rw [begun] at member
        cases List.mem_singleton.mp member
        exact ⟨isHome, loop⟩

/-! ## Homes -/

/-- The number of a program or of a method, whether it is under way or not. -/
structure IsHome (machine : Machine) (home : FrameId) : Prop where
  issued : home.number ≤ machine.lastFrame
  notBlock : ∀ activation ∈ machine.activations, activation.id = home → activation.kind ≠ .block

theorem Continues.isHome {home : FrameId} (continues : earlier.Continues later)
    (isHome : earlier.IsHome home) : later.IsHome home := by
  refine ⟨Nat.le_trans isHome.issued continues.issued, fun activation member same => ?_⟩
  have old : activation.id.number ≤ earlier.lastFrame := same ▸ isHome.issued
  exact isHome.notBlock activation (continues.same activation member old) same

/-- A new activation that is not one of a block is a home. -/
theorem Ordered.isHome_enter {frame : Frame} (ordered : before.Ordered)
    (number : frame.id = ⟨before.lastFrame + 1⟩) (notBlock : frame.kind ≠ .block)
    (lastFrame : after.lastFrame = before.lastFrame + 1)
    (entered : ∀ activation ∈ after.activations,
      activation = frame.fixed ∨ activation ∈ before.activations) : after.IsHome frame.id := by
  refine ⟨by rw [number, lastFrame], fun activation member same => ?_⟩
  rcases entered activation member with rfl | below
  · exact notBlock
  · have old := ordered.issued activation below
    rw [same, number] at old
    exact absurd old (Nat.not_succ_le_self _)

/-- Every activation and every block has a home among ordered activations. -/
structure Homed (machine : Machine) : Prop extends machine.Ordered where
  homes : ∀ activation ∈ machine.activations, machine.IsHome activation.home
  blocks : ∀ id closure, machine.store.get? id = some (.block closure) → machine.IsHome closure.home

theorem Homed.frames (homed : machine.Homed) {frame : Frame} (member : frame ∈ machine.frames) :
    machine.IsHome frame.home :=
  homed.homes frame.fixed (List.mem_map_of_mem member)

theorem Turn.homes (turn : Turn licence before after) (homed : before.Homed) :
    ∀ activation ∈ after.activations, after.IsHome activation.home := by
  have continues := turn.continues
  have kept : ∀ activation ∈ before.activations, after.IsHome activation.home :=
    fun activation member => continues.isHome (homed.homes activation member)
  cases turn with
  | keep _ suffix =>
      exact fun activation member => kept activation (suffix.mem member)
  | @enter frame _ _ _ atStart runs _ _ lastFrame entered =>
      rw [entered, List.forall_mem_cons]
      refine ⟨?_, kept⟩
      change after.IsHome frame.home
      cases runs with
      | method _ _ _ isMethod _ isHome _ _ =>
          rw [isHome]
          refine homed.isHome_enter atStart.id (by rw [isMethod]; decide) lastFrame ?_
          rw [entered]
          exact fun activation member => List.mem_cons.mp member
      | block found _ _ shares _ =>
          rw [← shares.home]
          exact continues.isHome (homed.blocks _ _ found)
  | @begin frame _ number isHome isTopLevel _ _ lastFrame begun =>
      intro activation member
      rw [begun] at member
      cases List.mem_singleton.mp member
      change after.IsHome frame.home
      rw [isHome]
      refine homed.isHome_enter number (by rw [isTopLevel]; decide) lastFrame ?_
      rw [begun]
      exact fun activation member => Or.inl (List.mem_singleton.mp member)

theorem Move.homed (move : Move licence before after) (homed : before.Homed) : after.Homed := by
  refine ⟨move.turn.ordered homed.toOrdered, move.turn.homes homed, fun id closure found => ?_⟩
  have continues := move.turn.continues
  rcases move.block_origin found with was | ⟨frame, member, shared⟩
  · exact continues.isHome (homed.blocks id closure was)
  · rw [shared]
    exact continues.isHome (homed.frames member)

theorem homed_new (config : Config) (refusal : Option String) : (new config refusal).Homed := by
  have nothing : (new config refusal).activations = [] := rfl
  have noBlock : ∀ id closure, (new config refusal).store.get? id ≠ some (.block closure) := by
    intro id closure found
    change (Store.empty.alloc (.classObject (ClassObject.root rootClassName))).2.get? id =
      some (.block closure) at found
    rcases Store.get?_alloc_cases found with new | was
    · cases new
    · cases was
  refine ⟨⟨?_, ?_, ?_, ?_⟩, ?_, fun id closure found => (noBlock id closure found).elim⟩
  · rw [nothing]
    exact List.Pairwise.nil
  · simp [nothing]
  · simp [nothing]
  · simp [nothing]
  · simp [nothing]

end Machine

/-! ## The return itself -/

namespace Exec

variable {machine : Machine} {current : Frame} {rest : List Frame} {value : Value}

/-- The machine at the end of a computation, whether it has failed or not. -/
def reached {α : Type} : EStateM.Result Cause Machine α → Machine
  | .ok _ machine | .error _ machine => machine

theorem bind_of_ok {α β : Type} {x : Exec α} {f : α → Exec β} {answer : α} {reached : Machine}
    (first : x machine = .ok answer reached) : (x >>= f) machine = f answer reached := by
  change EStateM.bind x f machine = _
  unfold EStateM.bind
  rw [first]

theorem bind_of_error {α β : Type} {x : Exec α} {f : α → Exec β} {cause : Cause}
    {reached : Machine} (first : x machine = .error cause reached) :
    (x >>= f) machine = .error cause reached := by
  change EStateM.bind x f machine = _
  unfold EStateM.bind
  rw [first]

theorem bind_eq_ok {α β : Type} {x : Exec α} {f : α → Exec β} {answer : β}
    {reached : Machine} :
    (x >>= f) machine = .ok answer reached ↔
      ∃ value between, x machine = .ok value between ∧ f value between = .ok answer reached := by
  change EStateM.bind x f machine = .ok answer reached ↔ _
  unfold EStateM.bind
  cases x machine with
  | ok value between =>
      constructor
      · intro answered
        exact ⟨value, between, rfl, answered⟩
      · rintro ⟨_, _, ⟨⟩, answered⟩
        exact answered
  | error cause between =>
      constructor
      · intro impossible
        cases impossible
      · rintro ⟨_, _, impossible, _⟩
        cases impossible

theorem pop_of_cons {operands : List Value} (frames : machine.frames = current :: rest)
    (stack : current.stack = value :: operands) :
    pop machine =
      .ok value { machine with frames := { current with stack := operands } :: rest } := by
  unfold pop
  rw [bind_of_ok (frame_of_cons frames)]
  simp only [stack]
  exact bind_of_ok (modifyFrame_of_cons frames _)

theorem push_of_cons (frames : machine.frames = current :: rest)
    (room : current.stack.length < machine.config.maxStackDepth) :
    push value machine =
      .ok ()
        { machine with frames := { current with stack := value :: current.stack } :: rest } := by
  unfold push
  rw [get_bind, bind_of_ok (frame_of_cons frames)]
  simp only [Nat.not_le.mpr room, if_false]
  exact modifyFrame_of_cons frames _

theorem push_of_full (frames : machine.frames = current :: rest)
    (full : machine.config.maxStackDepth ≤ current.stack.length) :
    push value machine = .error (.stackOverflow machine.config.maxStackDepth) machine := by
  unfold push
  rw [get_bind, bind_of_ok (frame_of_cons frames)]
  simp only [full, if_true]
  rfl

/-- The last activation ends, and the program with it. -/
theorem complete_last {done : Frame} (frames : machine.frames = [done]) :
    complete value machine =
      .ok (.finished value) { machine with frames := [], result := some value } := by
  cases machine
  cases frames
  rfl

/-- An activation that no loop waits for ends, and its caller goes on with the value. -/
theorem complete_called {done caller : Frame} {others : List Frame}
    (frames : machine.frames = done :: caller :: others) (loop : done.loop = none)
    (room : caller.stack.length < machine.config.maxStackDepth) :
    complete value machine =
      .ok .running
        { machine with frames := { caller with stack := value :: caller.stack } :: others } := by
  have ended : complete value machine =
      (push value >>= fun _ => pure .running : Exec StepState)
        { machine with frames := caller :: others } := by
    cases machine
    cases done
    cases frames
    cases loop
    rfl
  rw [ended]
  exact bind_of_ok (push_of_cons rfl room)

theorem returnFromHome_of_none (frames : machine.frames = current :: rest)
    (isBlock : current.kind = .block) (ended : unwind? current.home machine.frames = none) :
    returnFromHome value machine = .error .nonLocalReturnExpired machine := by
  unfold returnFromHome
  rw [bind_of_ok (frame_of_cons frames)]
  simp only [isBlock, if_true]
  rw [get_bind, ended]
  rfl

theorem returnFromHome_of_some {found : List Frame} (frames : machine.frames = current :: rest)
    (isBlock : current.kind = .block) (unwound : unwind? current.home machine.frames = some found) :
    returnFromHome value machine = complete value { machine with frames := found } := by
  unfold returnFromHome
  rw [bind_of_ok (frame_of_cons frames)]
  simp only [isBlock, if_true]
  rw [get_bind, unwound]
  rfl

theorem countStep_of_within
    (within : ∀ limit, machine.config.maxSteps = some limit → machine.steps < limit) :
    countStep machine = .ok () { machine with steps := machine.steps + 1 } := by
  unfold countStep
  rw [modify_bind, get_bind]
  cases isLimit : machine.config.maxSteps with
  | none =>
      rfl
  | some limit =>
      have room := within limit isLimit
      dsimp only
      rw [if_neg (by omega)]
      rfl

theorem instructionStep_of_some {instruction : Instruction}
    (frames : machine.frames = current :: rest)
    (next : current.code.code[current.ip]? = some instruction) :
    instructionStep machine =
      execute instruction
        { machine with frames := { current with ip := current.ip + 1 } :: rest } := by
  unfold instructionStep
  rw [bind_of_ok (frame_of_cons frames)]
  simp only [next]
  exact bind_of_ok (modifyFrame_of_cons frames _)

theorem countStep_of_spent {limit : Nat} (isLimit : machine.config.maxSteps = some limit)
    (spent : limit ≤ machine.steps) :
    countStep machine =
      .error (.stepLimitExceeded limit) { machine with steps := machine.steps + 1 } := by
  unfold countStep
  rw [modify_bind, get_bind]
  dsimp only
  rw [isLimit]
  dsimp only
  rw [if_pos (by omega)]
  rfl

/-- No more steps may be taken. -/
theorem step_of_spent {limit : Nat} (isLimit : machine.config.maxSteps = some limit)
    (spent : limit ≤ machine.steps) :
    step machine =
      .error (.stepLimitExceeded limit) { machine with steps := machine.steps + 1 } := by
  rw [step_eq]
  change EStateM.bind countStep _ machine = _
  unfold EStateM.bind
  rw [countStep_of_spent isLimit spent]

/-- The machine in which the next instruction is executed: the step has been counted, what is not in
use may have been collected, and the activation has gone on to the next position. -/
def prepared (machine : Machine) (current : Frame) (rest : List Frame) :
    Machine :=
  { ({ machine with steps := machine.steps + 1 } : Machine).tidied with
    frames := { current with ip := current.ip + 1 } :: rest }

theorem step_of_counted
    (within : ∀ limit, machine.config.maxSteps = some limit → machine.steps < limit) :
    step machine =
      instructionStep ({ machine with steps := machine.steps + 1 } : Machine).tidied := by
  rw [step_eq, bind_of_ok (countStep_of_within within), bind_of_ok (Machine.collectIfNeeded_eq _)]

theorem step_of_within {instruction : Instruction} (frames : machine.frames = current :: rest)
    (next : current.code.code[current.ip]? = some instruction)
    (within : ∀ limit, machine.config.maxSteps = some limit → machine.steps < limit) :
    step machine = execute instruction (prepared machine current rest) := by
  have tidiedFrames : ({ machine with steps := machine.steps + 1 } : Machine).tidied.frames =
      current :: rest := (Machine.frames_tidied _).trans frames
  rw [step_of_counted within, instructionStep_of_some tidiedFrames next]
  rfl

/-- The step of a block that returns from its home, up to the return itself. -/
theorem step_nonLocalReturn {operand : Int32} {operands : List Value} (bounded : machine.Bounded)
    (frames : machine.frames = current :: rest)
    (next : current.code.code[current.ip]? = some ⟨.nonLocalReturn, operand⟩)
    (stack : current.stack = value :: operands)
    (within : ∀ limit, machine.config.maxSteps = some limit → machine.steps < limit) :
    ∃ returning : Machine, step machine = returnFromHome value returning ∧ returning.Bounded ∧
      returning.frames = { current with ip := current.ip + 1, stack := operands } :: rest := by
  let counted : Machine := { machine with steps := machine.steps + 1 }
  let advanced : Frame := { current with ip := current.ip + 1 }
  have tidiedFrames : counted.tidied.frames = current :: rest := counted.frames_tidied.trans frames
  have boundedCounted : counted.Bounded := ⟨bounded.limited, bounded.waiting⟩
  have boundedTidied := boundedCounted.tidied
  have enough := ((Machine.bounded_cons tidiedFrames).mp boundedTidied).1
  rw [stack, List.length_cons] at enough
  refine ⟨{ counted.tidied with frames := { advanced with stack := operands } :: rest }, ?_,
    boundedTidied.replace tidiedFrames (Nat.le_of_succ_le enough), rfl⟩
  have advancedStack : advanced.stack = value :: operands := stack
  rw [step_of_within frames next within]
  exact bind_of_ok (pop_of_cons rfl advancedStack)

end Exec

namespace Machine

variable {machine : Machine} {current : Frame} {rest : List Frame} {value : Value}

theorem fixed_mem_activations (frames : machine.frames = current :: rest) :
    current.fixed ∈ machine.activations :=
  List.mem_map_of_mem (frames ▸ List.mem_cons_self)

theorem exists_current {ip : Nat} {instruction : Instruction}
    (next : machine.currentInstruction? = some (ip, instruction)) :
    ∃ current rest, machine.frames = current :: rest ∧ current.ip = ip ∧
      current.code.code[current.ip]? = some instruction := by
  unfold currentInstruction? at next
  split at next
  · rename_i current rest frames
    obtain ⟨_, isNext, same⟩ := Option.map_eq_some_iff.mp next
    obtain ⟨isIp, rfl⟩ := Prod.mk.inj same
    exact ⟨current, rest, frames, isIp, isNext⟩
  · cases next

theorem step_of_cons (frames : machine.frames = current :: rest) :
    machine.step = match Exec.step machine with
      | .ok state next => (next, .ok state)
      | .error cause next => (next, .error ⟨cause, next.trace⟩) := by
  unfold Machine.step
  rw [frames]
  rfl

theorem step_fst_of_cons (frames : machine.frames = current :: rest) :
    machine.step.1 = Exec.reached (Exec.step machine) := by
  rw [step_of_cons frames]
  cases Exec.step machine <;> rfl

/-- How a return from a home ends, where the given activations are under way. -/
inductive ReturnsFrom (frames : List Frame) (home : FrameId) (value : Value) :
    Machine × Except Fault StepState → Prop
  /-- The home has ended before. -/
  | expired {reached : Machine} {trace : List TraceEntry} : (∀ frame ∈ frames, frame.id ≠ home) →
      ReturnsFrom frames home value (reached, .error ⟨.nonLocalReturnExpired, trace⟩)
  /-- The home is the program itself. -/
  | finished {above : List Frame} {frame : Frame} {reached : Machine} :
      frames = above ++ [frame] → frame.id = home → frame.kind = .topLevel →
      reached.frames = [] → reached.result = some value →
      ReturnsFrom frames home value (reached, .ok (.finished value))
  /-- The home is a method, and its caller goes on with the value. -/
  | answered {above others : List Frame} {frame caller : Frame} {reached : Machine} :
      frames = above ++ frame :: caller :: others → frame.id = home → frame.kind = .method →
      reached.frames = { caller with stack := value :: caller.stack } :: others →
      ReturnsFrom frames home value (reached, .ok .running)

/-- What is at the bottom, and only that, is a program. -/
theorem Ordered.topLevel_iff (ordered : machine.Ordered) {above below : List Frame} {frame : Frame}
    (position : machine.frames = above ++ frame :: below) :
    frame.kind = .topLevel ↔ below = [] := by
  have split : machine.activations =
      above.map Frame.fixed ++ frame.fixed :: below.map Frame.fixed := by
    unfold activations
    rw [position, List.map_append, List.map_cons]
  rw [← List.map_eq_nil_iff]
  exact ordered.bottom _ frame.fixed _ split

theorem IsHome.kind_ne_block {home : FrameId} (isHome : machine.IsHome home) {frame : Frame}
    (member : frame ∈ machine.frames) (same : frame.id = home) : frame.kind ≠ .block :=
  isHome.notBlock frame.fixed (List.mem_map_of_mem member) same

theorem IsHome.kind_eq {home : FrameId} (isHome : machine.IsHome home) {frame : Frame}
    (member : frame ∈ machine.frames) (same : frame.id = home) :
    frame.kind = .method ∨ frame.kind = .topLevel := by
  have notBlock := isHome.kind_ne_block member same
  cases kind : frame.kind with
  | topLevel =>
      exact Or.inr rfl
  | method =>
      exact Or.inl rfl
  | block =>
      exact absurd kind notBlock

theorem returnsFrom_home {operand : Int32} {operands : List Value} (homed : machine.Homed)
    (bounded : machine.Bounded) (frames : machine.frames = current :: rest)
    (isBlock : current.kind = .block)
    (next : current.code.code[current.ip]? = some ⟨.nonLocalReturn, operand⟩)
    (stack : current.stack = value :: operands)
    (within : ∀ limit, machine.config.maxSteps = some limit → machine.steps < limit) :
    ReturnsFrom machine.frames current.home value machine.step := by
  have innermost : current ∈ machine.frames := frames ▸ List.mem_cons_self
  have isHome := homed.frames innermost
  have elsewhere : current.id ≠ current.home := fun same =>
    isHome.kind_ne_block innermost same isBlock
  obtain ⟨returning, isStep, boundedReturning, returningFrames⟩ :=
    Exec.step_nonLocalReturn bounded frames next stack within
  -- The running block is passed over, since it is not its own home.
  have passed : Exec.unwind? current.home returning.frames = Exec.unwind? current.home rest := by
    rw [returningFrames]
    exact if_neg elsewhere
  rw [step_of_cons frames, isStep]
  rcases Exec.unwind?_cases current.home rest with
    ⟨ended, others⟩ | ⟨above, home, below, whole, same, found⟩
  · rw [Exec.returnFromHome_of_none returningFrames isBlock (passed.trans ended)]
    refine .expired ?_
    rw [frames]
    exact List.forall_mem_cons.mpr ⟨elsewhere, others⟩
  · rw [Exec.returnFromHome_of_some returningFrames isBlock (passed.trans found)]
    have position : machine.frames = (current :: above) ++ home :: below := by
      rw [frames, whole, List.cons_append]
    have member : home ∈ machine.frames := by
      rw [position]
      exact List.mem_append_right _ List.mem_cons_self
    have notBlock := isHome.kind_ne_block member same
    have notLoop : home.loop = none :=
      (homed.own home.fixed (List.mem_map_of_mem member) notBlock).2
    have isProgram := homed.topLevel_iff position
    cases below with
    | nil =>
        rw [Exec.complete_last rfl]
        exact .finished position same (isProgram.mpr rfl) rfl rfl
    | cons caller others =>
        have room : caller.stack.length < returning.config.maxStackDepth := by
          apply boundedReturning.waiting
          rw [returningFrames, List.tail_cons, whole]
          simp
        have unwound : ({ returning with frames := home :: caller :: others } : Machine).frames =
            home :: caller :: others := rfl
        have notProgram : home.kind ≠ .topLevel := fun isTopLevel =>
          List.cons_ne_nil caller others (isProgram.mp isTopLevel)
        rw [Exec.complete_called unwound notLoop room]
        exact .answered position same ((isHome.kind_eq member same).resolve_right notProgram) rfl

/-- The home of a block that is running or could be called. -/
inductive HasHome (machine : Machine) : FrameId → Prop
  | running {frame : Frame} : frame ∈ machine.frames → frame.kind = .block →
      HasHome machine frame.home
  | block {closure : Closure} : machine.HasClosure closure → HasHome machine closure.home

theorem HasHome.isHome {home : FrameId} (hasHome : machine.HasHome home) (homed : machine.Homed)
    (alike : machine.Alike machine) : machine.IsHome home := by
  cases hasHome with
  | running member _ =>
      exact homed.frames member
  | block hasClosure =>
      obtain ⟨id, found⟩ := hasClosure.isStored alike
      exact homed.blocks id _ found

theorem Ordered.descending_frames (ordered : machine.Ordered) :
    machine.frames.Pairwise fun upper lower => lower.id.number < upper.id.number :=
  List.pairwise_map.mp ordered.descending

theorem Ordered.nodup_ids (ordered : machine.Ordered) : (machine.frames.map Frame.id).Nodup := by
  refine List.pairwise_map.mpr (ordered.descending_frames.imp fun less same => ?_)
  rw [same] at less
  exact Nat.lt_irrefl _ less

/-- An activation that goes on is what it was but for its progress. -/
theorem Continues.frame {earlier later : Machine} (continues : earlier.Continues later)
    {frame : Frame} (member : frame ∈ later.frames)
    (old : frame.id.number ≤ earlier.lastFrame) :
    ∃ before ∈ earlier.frames, frame = { before with ip := frame.ip, stack := frame.stack } := by
  have was := continues.same frame.fixed (List.mem_map_of_mem member) old
  obtain ⟨before, beforeMember, same⟩ := List.mem_map.mp was
  refine ⟨before, beforeMember, ?_⟩
  cases frame
  cases before
  cases same
  rfl

/-- A home that has ended does not come back. -/
theorem Continues.ended {earlier later : Machine} (continues : earlier.Continues later)
    {home : FrameId} (isHome : earlier.IsHome home)
    (ended : ∀ frame ∈ earlier.frames, frame.id ≠ home) :
    ∀ frame ∈ later.frames, frame.id ≠ home := by
  intro frame member same
  have old : frame.id.number ≤ earlier.lastFrame := same ▸ isHome.issued
  obtain ⟨before, beforeMember, isFrame⟩ := continues.frame member old
  have sameId : frame.id = before.id := by rw [isFrame]
  exact ended before beforeMember (sameId.symm.trans same)

/-- Whatever a machine was asked to do, its activations have ascending numbers that no later
activation gets, and the one at the bottom is the program.  The home of a block is one activation at
most, a method or the program, and once it has ended it is gone for ever.  A return in a block finds
the home or reports that it has ended; it ends the home with everything above it and leaves
everything below its caller alone. -/
theorem returns_from_home (config : Config) (refusal : Option String) (commands : List Command) :
    let machine := (new config refusal).after commands
    machine.frames.Pairwise (fun upper lower => lower.id.number < upper.id.number) ∧
      (∀ above frame below, machine.frames = above ++ frame :: below →
        (frame.kind = .topLevel ↔ below = [])) ∧
      (∀ frame ∈ machine.frames, frame.id.number ≤ machine.lastFrame) ∧
      (∀ more, ∀ frame ∈ (machine.after more).frames, frame.id.number ≤ machine.lastFrame →
        ∃ before ∈ machine.frames, frame = { before with ip := frame.ip, stack := frame.stack }) ∧
      (∀ home, machine.HasHome home → home.number ≤ machine.lastFrame ∧
        (machine.frames.map Frame.id).count home ≤ 1 ∧
          (∀ frame ∈ machine.frames, frame.id = home →
            frame.kind = .method ∨ frame.kind = .topLevel) ∧
          ((∀ frame ∈ machine.frames, frame.id ≠ home) →
            ∀ more, ∀ frame ∈ (machine.after more).frames, frame.id ≠ home)) ∧
      ∀ current rest operand value operands, machine.frames = current :: rest →
        current.kind = .block →
        current.code.code[current.ip]? = some ⟨.nonLocalReturn, operand⟩ →
        current.stack = value :: operands →
        (∀ limit, machine.config.maxSteps = some limit → machine.steps < limit) →
        ReturnsFrom machine.frames current.home value machine.step := by
  intro machine
  have homed : machine.Homed :=
    holds_after config refusal (homed_new config refusal) (fun move => move.homed) commands
  have bounded : machine.Bounded := bounded_after config refusal commands
  have alike : machine.Alike machine := alike_after config refusal commands
  have continues : ∀ more, machine.Continues (machine.after more) :=
    fun more => (moves_after alike bounded more).continues
  refine ⟨homed.descending_frames, fun above frame below => homed.topLevel_iff,
    fun frame member => homed.issued frame.fixed (List.mem_map_of_mem member),
    fun more frame => (continues more).frame, fun home hasHome => ?_,
    fun current rest operand value operands => returnsFrom_home homed bounded⟩
  have isHome := hasHome.isHome homed alike
  exact ⟨isHome.issued, List.nodup_iff_count_le_one.mp homed.nodup_ids home,
    fun frame => isHome.kind_eq, fun ended more => (continues more).ended isHome ended⟩

/-- A block ends the program that created it, but not a later one that finds it in a global. -/
example :
    let body : CodeUnit := ⟨#[⟨.pushTrue, 0⟩, ⟨.nonLocalReturn, 0⟩], []⟩
    let creates : CodeUnit :=
      ⟨#[.packed .makeClosure 0 0, .indexed .storeGlobal 1, .packed .send 2 0],
        [.block body, .string "answer", .string "value"]⟩
    let calls : CodeUnit :=
      ⟨#[.indexed .loadGlobal 0, .packed .send 1 0], [.string "answer", .string "value"]⟩
    let created := (new {} none).after [.load creates, .step, .step, .step, .step]
    let called := created.after [.step, .load calls, .step, .step, .step]
    created.step.2 = .ok (.finished (.bool true)) ∧
      called.step.2.mapError Fault.cause = .error .nonLocalReturnExpired :=
  ⟨rfl, rfl⟩

end Machine

end Missive
