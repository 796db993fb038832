import Missive.Proofs.Steps.Returns

/-!
# Limits

A machine is told how many activations may be under way, how many values a stack may hold and how
many steps a program may take.  It keeps to these limits whatever it is asked to do, also when steps
are taken after a fault.

An activation that waits for an answer has given up at least one value for it: the receiver of a
message, or what a completed activation below it left.  So there is room for every answer, and a
full stack is a fault of instructions that push something new, never one of messages and returns.
-/

namespace Missive

/-- The cause is that a stack is full. -/
def Cause.isOverflow : Cause → Bool
  | .stackOverflow _ => true
  | _ => false

theorem Cause.isOverflow_of_isOfMessage {cause : Cause} (external : cause.isOfMessage = true) :
    cause.isOverflow = false := by
  cases cause with
  | stackOverflow _ =>
      cases external
  | _ =>
      rfl

/-- The instruction sends a message or ends an activation. -/
def Opcode.delivers : Opcode → Bool
  | .send | .superSend | .return | .nonLocalReturn => true
  | _ => false

/-- The next instruction sends a message or ends an activation, or there is none. -/
def Machine.Delivers (machine : Machine) : Prop :=
  ∀ current rest instruction, machine.frames = current :: rest →
    current.code.code[current.ip]? = some instruction → instruction.opcode.delivers = true

namespace Exec

/-! ## Computations that fill no stack -/

/-- From the machine, the computation does not fail because a stack is full. -/
def Fits {α : Type} (machine : Machine) (x : Exec α) : Prop :=
  ∀ cause reached, x machine = .error cause reached → cause.isOverflow = false

variable {α β : Type} {machine : Machine}

theorem fits_of_ok {x : Exec α} {answer : α} {reached : Machine}
    (succeeds : x machine = .ok answer reached) : Fits machine x := by
  intro cause failed isFailure
  rw [succeeds] at isFailure
  cases isFailure

theorem fits_pure (answer : α) : Fits machine (pure answer) :=
  fits_of_ok rfl

theorem fits_throw {cause : Cause} (other : cause.isOverflow = false) :
    Fits machine (throw cause : Exec α) := by
  rintro _ _ ⟨⟩
  exact other

theorem Fits.bind {x : Exec α} {f : α → Exec β} (first : Fits machine x)
    (next : ∀ {answer reached}, x machine = .ok answer reached → Fits reached (f answer)) :
    Fits machine (x >>= f) := by
  intro cause failed isFailure
  change EStateM.bind x f machine = .error cause failed at isFailure
  unfold EStateM.bind at isFailure
  cases outcome : x machine with
  | ok answer reached =>
      rw [outcome] at isFailure
      exact next outcome cause failed isFailure
  | error other reached =>
      rw [outcome] at isFailure
      cases isFailure
      exact first cause failed outcome

theorem fits_throw_bind {cause : Cause} {f : β → Exec α} (other : cause.isOverflow = false) :
    Fits machine (throw cause >>= f) :=
  (fits_throw other).bind nofun

theorem fits_get_bind {f : Machine → Exec α} (next : Fits machine (f machine)) :
    Fits machine (get >>= f) :=
  next

theorem fits_modify_bind {change : Machine → Machine} {f : Unit → Exec α}
    (next : Fits (change machine) (f ())) : Fits machine (modify change >>= f) :=
  next

theorem fits_frame_bind {f : Frame → Exec α}
    (next : ∀ current rest, machine.frames = current :: rest → Fits machine (f current)) :
    Fits machine (frame >>= f) := by
  cases frames : machine.frames with
  | nil =>
      intro cause reached failed
      change EStateM.bind frame f machine = _ at failed
      unfold EStateM.bind at failed
      rw [frame_of_nil frames] at failed
      cases failed
      rfl
  | cons current rest =>
      refine (fits_of_ok (frame_of_cons frames)).bind fun succeeds => ?_
      rw [frame_of_cons frames] at succeeds
      cases succeeds
      exact next current rest frames

theorem Proceeds.moves {licence : Licence} {amiss : Cause → Prop} {good : α → Machine → Prop}
    {x : Exec α} (proceeds : Proceeds licence machine x amiss good) :
    machine.Moves licence (reached (x machine)) := by
  unfold Proceeds at proceeds
  generalize x machine = result at proceeds ⊢
  cases proceeds with
  | ok moves _ | error moves _ =>
      exact moves

/-- Nothing is said about the cause of a failure. -/
def anyCause (_ : Cause) : Prop := True

/-! ## Messages -/

theorem fits_pop : Fits machine pop := by
  refine fits_frame_bind fun current rest _ => ?_
  split
  · exact fits_of_ok rfl
  · exact fits_throw rfl

theorem took_of_pop {value : Value} {reached : Machine} (popped : pop machine = .ok value reached) :
    machine.Took 1 reached := by
  have proceeds : Proceeds .any machine pop anyCause _ := proceeds_pop
  exact (proceeds.of_ok popped).2.1

theorem fits_popMany (count : Nat) : Fits machine (popMany count) := by
  refine fits_frame_bind fun current rest _ => ?_
  dsimp only
  split
  · exact fits_throw_bind rfl
  · exact fits_of_ok rfl

theorem fits_takeMessage (instruction : Instruction) : Fits machine (takeMessage instruction) := by
  refine (fits_frame_bind fun _ _ _ => fits_pure _).bind fun _ => ?_
  split
  · refine (fits_popMany _).bind fun _ => ?_
    exact fits_pop.bind fun _ => fits_pure _
  · exact fits_throw rfl

theorem took_of_takeMessage {instruction : Instruction} {message : Value × Selector × List Value}
    {reached : Machine} (kind : instruction.opcode.operandKind = .send)
    (taken : takeMessage instruction machine = .ok message reached) :
    machine.Took ((Instruction.unpack instruction.operand).2 + 1) reached := by
  have proceeds : Proceeds .any machine _ _ _ := proceeds_takeMessage kind
  exact (proceeds.of_ok taken).2.1

theorem fits_pushTracked (hasRoom : machine.HasRoom) (value : Value) :
    Fits machine (pushTracked value) := by
  obtain ⟨current, rest, frames⟩ := List.exists_cons_of_ne_nil hasRoom.running
  have room := hasRoom.room current (frames ▸ List.mem_cons_self)
  have tracked : ({ machine with store := machine.store.track value } : Machine).frames =
      current :: rest := frames
  exact fits_of_ok (push_of_cons tracked room)

theorem fits_checkDepth : Fits machine checkDepth := by
  apply fits_get_bind
  split
  · exact fits_throw rfl
  · exact fits_pure ()

theorem fits_callMethod (receiver : Value) (owner : ObjectId) (definition : ClassObject)
    (method : MethodDescriptor) (classSide : Bool) (arguments : List Value) :
    Fits machine (callMethod receiver owner definition method classSide arguments) :=
  fits_checkDepth.bind fun _ => fits_of_ok rfl

theorem fits_callBlock (block : BlockRef) (arguments : List Value) (loop : Option Iteration) :
    Fits machine (callBlock block arguments loop) := by
  unfold callBlock
  dsimp only
  split
  · exact fits_throw_bind rfl
  · exact fits_checkDepth.bind fun _ => fits_of_ok rfl

theorem write_cases (text : String) (machine : Machine) :
    (∃ reason, write text machine = .error (.output reason) machine) ∨
      ∃ output, write text machine = .ok () { machine with output } := by
  unfold write
  rw [get_bind]
  cases machine.output.refusal with
  | some reason =>
      dsimp only
      split
      · exact Or.inl ⟨reason, rfl⟩
      · exact Or.inr ⟨machine.output, rfl⟩
  | none =>
      exact Or.inr ⟨{ machine.output with written := machine.output.written ++ text }, rfl⟩

theorem fits_perform (hasRoom : machine.HasRoom) (action : Action) :
    Fits machine (perform action) := by
  cases action with
  | answer value =>
      exact fits_pushTracked hasRoom value
  | call block arguments loop =>
      exact fits_callBlock block arguments loop
  | write text value =>
      rcases write_cases text machine with ⟨reason, refused⟩ | ⟨output, written⟩
      · refine Fits.bind ?_ fun succeeds => ?_
        · intro cause reached failed
          rw [refused] at failed
          cases failed
          rfl
        · rw [refused] at succeeds
          cases succeeds
      · refine (fits_of_ok written).bind fun succeeds => ?_
        rw [written] at succeeds
        cases succeeds
        have stillRoom : Machine.HasRoom { machine with output } :=
          ⟨hasRoom.running, hasRoom.room⟩
        exact fits_pushTracked stillRoom value

/-- Built-in responses fail for reasons of their own, and there is room for what they answer. -/
theorem fits_respond {link : Link} {effect : Effect Action} (hasRoom : machine.HasRoom)
    (effects : Effect.Agrees link machine.store machine.store effect effect Link.Actions) :
    Fits machine (do perform (← onStore effect)) := by
  unfold Effect.Agrees at effects
  refine Fits.bind ?_ fun {action reached} succeeds => ?_
  · intro cause reached failed
    unfold onStore at failed
    cases outcome : effect machine.store with
    | ok action store =>
        rw [outcome] at failed
        cases failed
    | error other store =>
        rw [outcome] at failed effects
        cases failed
        cases effects with
        | error _ external =>
            exact Cause.isOverflow_of_isOfMessage external
  · unfold onStore at succeeds
    split at succeeds
    · rename_i store _
      cases succeeds
      have stillRoom : Machine.HasRoom { machine with store } := ⟨hasRoom.running, hasRoom.room⟩
      exact fits_perform stillRoom action
    · cases succeeds

theorem fits_checkArgumentCount (selector : Selector) (given : Nat) :
    Fits machine (checkArgumentCount selector given) := by
  unfold checkArgumentCount
  split
  · exact fits_throw rfl
  · exact fits_pure ()

theorem eq_of_checkArgumentCount {selector : Selector} {given : Nat} {reached : Machine}
    (checked : checkArgumentCount selector given machine = .ok () reached) : machine = reached := by
  have proceeds : Proceeds .any machine _ anyCause _ := proceeds_checkArgumentCount selector given
  exact (proceeds.of_ok checked).2.1

theorem eq_of_owner {opcode : Opcode} {id : ObjectId} {reached : Machine}
    (owned : owner opcode machine = .ok id reached) : machine = reached := by
  have proceeds : Proceeds .any machine _ anyCause _ := proceeds_owner opcode
  exact (proceeds.of_ok owned).2.1

section Messages

variable {link : Link} {receiver : Value} {arguments : List Value}
  (machines : link.Machines machine machine) (knownReceiver : link.Knows receiver)
  (known : ∀ value ∈ arguments, link.Knows value) (hasRoom : machine.HasRoom)
include machines knownReceiver known hasRoom

theorem fits_respondUniversally (selector : Selector) :
    Fits machine (respondUniversally receiver selector arguments) := by
  have responses := responses_universal machines.stores knownReceiver selector
  apply fits_get_bind
  dsimp only
  cases found : machine.store.universalResponse? receiver selector with
  | none =>
      exact fits_throw rfl
  | some response =>
      rw [found] at responses
      cases responses with
      | some effects =>
          exact fits_respond hasRoom (effects known)

theorem fits_send (selector : Selector) : Fits machine (send receiver selector arguments) := by
  refine (fits_checkArgumentCount selector _).bind fun checked => ?_
  cases eq_of_checkArgumentCount checked
  have responses := responses_builtin machines.stores knownReceiver selector
  apply fits_get_bind
  dsimp only
  generalize machine.store.builtinResponse? receiver selector = response at responses ⊢
  cases responses with
  | some effects =>
      exact fits_respond hasRoom (effects known)
  | none =>
      dsimp only
      split
      · exact fits_callMethod _ _ _ _ _ _
      · exact fits_respondUniversally machines knownReceiver known hasRoom selector

theorem fits_superSend (selector : Selector) :
    Fits machine (superSend receiver selector arguments) := by
  refine (fits_checkArgumentCount selector _).bind fun checked => ?_
  cases eq_of_checkArgumentCount checked
  refine fits_frame_bind fun current rest _ => ?_
  refine Fits.bind (fits_frame_bind fun _ _ _ => ?_) fun owned => ?_
  · split
    · exact fits_pure _
    · exact fits_throw rfl
  · cases eq_of_owner owned
    apply fits_get_bind
    split
    · exact fits_callMethod _ _ _ _ _ _
    · exact fits_respondUniversally machines knownReceiver known hasRoom selector

end Messages

/-! ## Returns -/

theorem fits_complete {link : Link} {value : Value} (bounded : machine.Bounded)
    (machines : link.Machines machine machine) (known : link.Knows value) :
    Fits machine (complete value) := by
  apply fits_get_bind
  cases frames : machine.frames with
  | nil =>
      exact fits_throw rfl
  | cons done rest =>
      apply fits_modify_bind
      cases rest with
      | nil =>
          exact fits_of_ok rfl
      | cons next others =>
          have hasRoom := bounded.hasRoom_below frames (List.cons_ne_nil next others)
          have linkedFrames := machines.frames
          rw [frames] at linkedFrames
          obtain ⟨innermost, below⟩ := List.forall₂_cons.mp linkedFrames
          have pending := innermost.loop
          cases loop : done.loop with
          | none =>
              have room := hasRoom.room next List.mem_cons_self
              exact (fits_of_ok (push_of_cons rfl room)).bind fun _ => fits_pure _
          | some iteration =>
              rw [loop] at pending
              cases pending with
              | some loops =>
                  have effects := agrees_resume (machines.withFrames below).stores loops known
                  change Fits _ (onStore (iteration.resume value) >>= fun action =>
                    perform action >>= fun _ => (pure StepState.running : Exec StepState))
                  rw [← bind_assoc]
                  exact (fits_respond hasRoom effects).bind fun _ => fits_pure _

theorem fits_returnFromHome {link : Link} {value : Value} (bounded : machine.Bounded)
    (machines : link.Machines machine machine) (known : link.Knows value) :
    Fits machine (returnFromHome value) := by
  refine fits_frame_bind fun current rest _ => ?_
  dsimp only
  split
  · apply fits_get_bind
    rcases unwind?_self current.home machines.frames with expired |
      ⟨found, unwound, linkedFrames⟩
    · rw [expired]
      exact fits_throw_bind rfl
    · rw [unwound]
      have suffix := unwind?_suffix unwound
      exact fits_modify_bind
        (fits_complete (bounded.suffix suffix) (machines.withFrames linkedFrames) known)
  · exact fits_complete bounded machines known

/-- An instruction that sends a message or ends an activation has freed a place for the answer
before the answer arrives. -/
theorem fits_execute {link : Link} {instruction : Instruction}
    (delivers : instruction.opcode.delivers = true) (bounded : machine.Bounded)
    (machines : link.Machines machine machine) : Fits machine (execute instruction) := by
  obtain ⟨opcode, operand⟩ := instruction
  cases opcode with
  | send =>
      refine Fits.bind ((fits_takeMessage _).bind ?_) fun _ => fits_pure _
      rintro ⟨receiver, selector, arguments⟩ reached taken
      obtain ⟨later, laterMachines, _, knownReceiver, known⟩ :=
        (agrees_takeMessage_self _ machines).of_ok taken
      have hasRoom := (took_of_takeMessage rfl taken).hasRoom bounded
      exact fits_send laterMachines knownReceiver known hasRoom selector
  | superSend =>
      refine Fits.bind ((fits_takeMessage _).bind ?_) fun _ => fits_pure _
      rintro ⟨receiver, selector, arguments⟩ reached taken
      obtain ⟨later, laterMachines, _, knownReceiver, known⟩ :=
        (agrees_takeMessage_self _ machines).of_ok taken
      have hasRoom := (took_of_takeMessage rfl taken).hasRoom bounded
      exact fits_superSend laterMachines knownReceiver known hasRoom selector
  | «return» =>
      refine fits_pop.bind fun {value reached} popped => ?_
      obtain ⟨later, laterMachines, _, known⟩ := (agrees_pop machines).of_ok popped
      exact fits_complete ((took_of_pop popped).hasRoom bounded).bounded laterMachines known
  | nonLocalReturn =>
      refine fits_pop.bind fun {value reached} popped => ?_
      obtain ⟨later, laterMachines, _, known⟩ := (agrees_pop machines).of_ok popped
      exact fits_returnFromHome ((took_of_pop popped).hasRoom bounded).bounded laterMachines known
  | _ =>
      cases delivers

theorem fits_instructionStep {link : Link} (bounded : machine.Bounded)
    (isSame : link.pairing = .same) (machines : link.Machines machine machine)
    (delivers : machine.Delivers) : Fits machine instructionStep := by
  refine fits_frame_bind fun current rest frames => ?_
  cases next : current.code.code[current.ip]? with
  | none =>
      have innermost := (List.forall₂_cons.mp (frames ▸ machines.frames)).1
      exact fits_complete bounded machines (knows_headD innermost.stack)
  | some instruction =>
      have move : machine.Move .any _ := .advance frames next fun refused => (refused trivial).elim
      have advanced := modifyFrame_of_cons frames fun frame => { frame with ip := frame.ip + 1 }
      obtain ⟨later, laterMachines, _⟩ :=
        (agrees_advanceFrame_of_same isSame machines).of_ok advanced
      refine (fits_of_ok advanced).bind fun succeeds => ?_
      rw [advanced] at succeeds
      cases succeeds
      exact fits_execute (delivers current rest instruction frames next) (move.bounded bounded)
        laterMachines

/-- A step executes something unless the program has taken all its steps. -/
theorem step_cases (machine : Machine) :
    step machine = instructionStep ({ machine with steps := machine.steps + 1 } : Machine).tidied ∨
      ∃ limit, step machine =
        .error (.stepLimitExceeded limit) { machine with steps := machine.steps + 1 } := by
  by_cases within : ∀ limit, machine.config.maxSteps = some limit → machine.steps < limit
  · exact Or.inl (step_of_counted within)
  · obtain ⟨limit, isLimit, spent⟩ : ∃ limit, machine.config.maxSteps = some limit ∧
        limit ≤ machine.steps := by
      simpa using within
    exact Or.inr ⟨limit, step_of_spent isLimit spent⟩

end Exec

namespace Machine

variable {licence : Licence} {config : Config} {machine before after : Machine}

/-! ## Activations under way -/

/-- The machine has the given limits, and no more activations are under way than these allow.  The
program itself is always one of them. -/
structure Limited (config : Config) (machine : Machine) : Prop where
  same : machine.config = config
  frames : machine.frames.length ≤ max 1 config.maxFrames

theorem Limited.replace {current changed : Frame} {rest : List Frame}
    (limited : Limited config machine) (frames : machine.frames = current :: rest) :
    Limited config { machine with frames := changed :: rest } := by
  have few := limited.frames
  rw [frames] at few
  exact ⟨limited.same, few⟩

theorem Move.limited (move : Move licence before after) (limited : Limited config before) :
    Limited config after := by
  cases move with
  | quiet quiet =>
      refine ⟨quiet.config.trans limited.same, ?_⟩
      rw [quiet.frames]
      exact limited.frames
  | push _ frames _ | drop _ frames | advance frames _ _ | jump frames _ _ =>
      exact limited.replace frames
  | assign _ _ _ _ _ | store _ _ _ _ | makeBlock _ _ _ _ | makeClass _ _ _ _ _ _ =>
      exact ⟨limited.same, limited.frames⟩
  | call _ _ notDeep _ _ _ =>
      rw [limited.same] at notDeep
      exact ⟨limited.same, Nat.le_trans notDeep (Nat.le_max_right _ _)⟩
  | leave suffix =>
      exact ⟨limited.same, Nat.le_trans suffix.length_le limited.frames⟩
  | launch _ _ =>
      exact ⟨limited.same, Nat.le_max_left _ _⟩

theorem limited_after (config : Config) (refusal : Option String) (commands : List Command) :
    Limited config ((new config refusal).after commands) :=
  holds_after config refusal ⟨rfl, Nat.zero_le _⟩ (fun move => move.limited) commands

/-! ## Steps taken -/

/-- The steps taken since a program was loaded, one command later.  Code that is not valid is not
loaded. -/
def count (taken : Nat) : Command → Nat
  | .load code | .loadInSession code => if code.verify = .ok () then 0 else taken
  | .step => taken + 1
  | .collect => taken

/-- The steps taken since a program was loaded. -/
def stepsSinceLoad (commands : List Command) : Nat := commands.foldl count 0

theorem Move.steps_le (move : Move .running before after) : before.steps ≤ after.steps := by
  cases move with
  | quiet quiet =>
      exact quiet.steps
  | launch _ ground =>
      exact (ground.allowed.elim id id).elim
  | assign _ _ _ _ _ | store _ _ _ _ | push _ _ _ | drop _ _ | advance _ _ _ | jump _ _ _
  | makeBlock _ _ _ _ | makeClass _ _ _ _ _ _ | call _ _ _ _ _ _ | leave _ =>
      exact Nat.le_refl _

theorem Moves.steps_le (moves : Moves .running before after) : before.steps ≤ after.steps :=
  have holds : ∀ {middle last : Machine}, Move .running middle last →
      before.steps ≤ middle.steps → before.steps ≤ last.steps :=
    fun move less => Nat.le_trans less move.steps_le
  moves.keep holds (Nat.le_refl _)

/-- A program that is under way is charged for a step, also for one that fails. -/
theorem lt_steps_step (alike : machine.Alike machine) (bounded : machine.Bounded)
    (running : machine.frames ≠ []) : machine.steps < machine.step.1.steps := by
  obtain ⟨current, rest, frames⟩ := List.exists_cons_of_ne_nil running
  rw [step_fst_of_cons frames]
  rcases Exec.step_cases machine with executes | ⟨limit, spent⟩
  · let counted : Machine := { machine with steps := machine.steps + 1 }
    have boundedCounted : counted.Bounded := ⟨bounded.limited, bounded.waiting⟩
    obtain ⟨link, isSame, machines⟩ := alike.counted_tidied
    have proceeds :=
      Exec.proceeds_instructionStep (obeys_running counted.tidied) boundedCounted.tidied isSame
        machines
    rw [executes]
    calc machine.steps + 1 ≤ counted.tidied.steps := counted.quiet_tidied.steps
      _ ≤ _ := proceeds.moves.steps_le
  · rw [spent]
    exact Nat.lt_succ_self _

/-- While a program is under way, at least the given number of steps has been charged. -/
def Charged (taken : Nat) (machine : Machine) : Prop :=
  machine.frames ≠ [] → taken ≤ machine.steps

theorem step_fst_of_nil (ended : machine.frames = []) : machine.step.1 = machine := by
  unfold step
  rw [ended]
  cases machine.result <;> rfl

theorem Charged.load {taken : Nat} (charged : Charged taken machine) (code : CodeUnit) :
    Charged (count taken (.load code)) (machine.load code).1 := by
  cases verified : code.verify with
  | error fault =>
      simpa [count, Machine.load, verified] using charged
  | ok _ =>
      simp [count, Machine.load, verified, Charged]

theorem Charged.loadInSession {taken : Nat} (charged : Charged taken machine) (code : CodeUnit) :
    Charged (count taken (.loadInSession code)) (machine.loadInSession code).1 := by
  cases verified : code.verify with
  | error fault =>
      simpa [count, Machine.loadInSession, verified] using charged
  | ok _ =>
      simp [count, Machine.loadInSession, verified, Charged]

theorem Charged.step {taken : Nat} (charged : Charged taken machine)
    (alike : machine.Alike machine) (bounded : machine.Bounded) :
    Charged (taken + 1) machine.step.1 := by
  intro stillRunning
  have running : machine.frames ≠ [] := by
    intro ended
    rw [step_fst_of_nil ended] at stillRunning
    exact stillRunning ended
  exact Nat.lt_of_le_of_lt (charged running) (lt_steps_step alike bounded running)

theorem Charged.afterCommands {taken : Nat} (charged : Charged taken machine)
    (alike : machine.Alike machine) (bounded : machine.Bounded) (commands : List Command) :
    Charged (commands.foldl count taken) (machine.after commands) := by
  induction commands generalizing machine taken with
  | nil =>
      exact charged
  | cons command rest inductionHypothesis =>
      refine inductionHypothesis ?_ (alike.after [command])
        ((moves_after alike bounded [command]).keep (fun move => move.bounded) bounded)
      cases command with
      | load code =>
          exact charged.load code
      | loadInSession code =>
          exact charged.loadInSession code
      | step =>
          exact charged.step alike bounded
      | collect =>
          exact charged

/-- Where no more steps may be taken, nothing is executed. -/
theorem step_of_overdrawn {limit : Nat} (isLimit : machine.config.maxSteps = some limit)
    (charged : Charged limit machine) :
    (∃ steps, machine.step.1 = { machine with steps }) ∧
      (machine.frames ≠ [] →
        machine.step.2 = .error ⟨.stepLimitExceeded limit, machine.trace⟩) := by
  cases frames : machine.frames with
  | nil =>
      refine ⟨⟨machine.steps, ?_⟩, fun running => (running rfl).elim⟩
      rw [step_fst_of_nil frames, ← frames]
  | cons current rest =>
      have spent := charged (frames ▸ List.cons_ne_nil current rest)
      rw [step_of_cons frames, Exec.step_of_spent isLimit spent, ← frames]
      exact ⟨⟨machine.steps + 1, rfl⟩, fun _ => rfl⟩

/-! ## Full stacks -/

/-- There is room for the answer of a message and for the value of an activation that ends. -/
theorem Delivers.fits_step (delivers : machine.Delivers) (alike : machine.Alike machine)
    (bounded : machine.Bounded) : Exec.Fits machine Exec.step := by
  intro cause reached failed
  rcases Exec.step_cases machine with executes | ⟨limit, spent⟩
  · let counted : Machine := { machine with steps := machine.steps + 1 }
    have boundedCounted : counted.Bounded := ⟨bounded.limited, bounded.waiting⟩
    have deliversTidied : counted.tidied.Delivers := by
      intro current rest instruction frames
      rw [frames_tidied] at frames
      exact delivers current rest instruction frames
    obtain ⟨link, isSame, machines⟩ := alike.counted_tidied
    rw [executes] at failed
    exact Exec.fits_instructionStep boundedCounted.tidied isSame machines deliversTidied cause
      reached failed
  · rw [spent] at failed
    cases failed
    rfl

theorem Delivers.not_overflow {fault : Fault} (delivers : machine.Delivers)
    (alike : machine.Alike machine) (bounded : machine.Bounded)
    (failed : machine.step.2 = .error fault) : fault.cause.isOverflow = false := by
  have fits := delivers.fits_step alike bounded
  unfold step at failed
  split at failed
  · split at failed
    · cases failed
    · cases failed
      rfl
  · split at failed
    · cases failed
    · rename_i cause reached isError
      cases failed
      exact fits cause reached isError

/-- Whatever a machine was asked to do, also after faults: no more activations are under way than
the limits allow, no stack holds more values, and those that wait hold fewer.  Once a program has
taken all its steps, no step executes anything.  A step fails because of a full stack only at an
instruction that neither sends a message nor ends an activation, so the answer of a message always
finds room. -/
theorem limits_respected (config : Config) (refusal : Option String) (commands : List Command) :
    let machine := (new config refusal).after commands
    machine.frames.length ≤ max 1 config.maxFrames ∧
      (∀ frame ∈ machine.frames, frame.stack.length ≤ config.maxStackDepth) ∧
      (∀ frame ∈ machine.frames.tail, frame.stack.length < config.maxStackDepth) ∧
      (∀ limit, config.maxSteps = some limit → limit ≤ stepsSinceLoad commands →
        (∃ steps, machine.step.1 = { machine with steps }) ∧
          (machine.frames ≠ [] →
            machine.step.2 = .error ⟨.stepLimitExceeded limit, machine.trace⟩)) ∧
      ∀ fault limit, machine.step.2 = .error fault → fault.cause = .stackOverflow limit →
        ∃ current rest instruction, machine.frames = current :: rest ∧
          current.code.code[current.ip]? = some instruction ∧
          instruction.opcode ∉ [.send, .superSend, .return, .nonLocalReturn] := by
  intro machine
  have limited : Limited config machine := limited_after config refusal commands
  have bounded : machine.Bounded := bounded_after config refusal commands
  have alike : machine.Alike machine := alike_after config refusal commands
  have charged : Charged (stepsSinceLoad commands) machine :=
    Charged.afterCommands (fun running => (running rfl).elim) (alike_new config refusal)
      (bounded_new config refusal) commands
  have isConfig := limited.same
  refine ⟨limited.frames, isConfig ▸ bounded.limited, isConfig ▸ bounded.waiting,
    fun limit isLimit overdrawn => ?_, fun fault limit failed full => ?_⟩
  · rw [← isConfig] at isLimit
    exact step_of_overdrawn isLimit fun running => Nat.le_trans overdrawn (charged running)
  · by_contra none
    have delivers : machine.Delivers := by
      intro current rest instruction frames next
      by_contra other
      refine none ⟨current, rest, instruction, frames, next, ?_⟩
      cases opcode : instruction.opcode <;> simp [opcode, Opcode.delivers] at other ⊢
    have other := delivers.not_overflow alike bounded failed
    rw [full] at other
    cases other

end Machine

end Missive
