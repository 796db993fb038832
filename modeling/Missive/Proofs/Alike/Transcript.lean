import Missive.Machine.Running
import Missive.Proofs.Alike.Collection

/-!
# Collections cannot be observed

A machine is given commands: to load a program, to take a step, or to collect garbage.  What can
be observed is what it answers to loads and steps, together with what it has written, how many
steps it has taken, and the texts of its operands, local variables and global variables.

When collections are made, and how often, makes no difference to these observations.  No program
ever meets a stale handle, and a collection leaves everything as it is that can be reached.
-/

namespace Missive

/-- What is asked of a machine. -/
inductive Command where
  | load (code : CodeUnit)
  | loadInSession (code : CodeUnit)
  | step
  | collect

/-- The command only collects garbage. -/
def Command.collects : Command → Bool
  | .collect => true
  | _ => false

/-- What a machine answers to a command. -/
inductive Reply where
  | loaded (result : Except Fault Unit)
  | stepped (result : Except Fault StepState)

/-- What can be seen of a machine. -/
structure View where
  written : String
  steps : Nat
  operands : List String
  locals : List String
  globals : List (String × String)
  deriving DecidableEq, Repr

namespace Machine

/-- What can be seen of the machine. -/
def view (machine : Machine) : View where
  written := machine.output.written
  steps := machine.steps
  operands := machine.operands.map machine.store.print
  locals := machine.locals.map machine.store.print
  globals := machine.globals.entries.map fun entry => (entry.1, machine.store.print entry.2)

/-- Carries out a command.  A collection is not answered. -/
def obey (machine : Machine) : Command → Machine × Option Reply
  | .load code =>
    let (next, result) := machine.load code
    (next, some (.loaded result))
  | .loadInSession code =>
    let (next, result) := machine.loadInSession code
    (next, some (.loaded result))
  | .step =>
    let (next, result) := machine.step
    (next, some (.stepped result))
  | .collect => (machine.collectGarbage, none)

/-- The machine after commands. -/
def after (machine : Machine) (commands : List Command) : Machine :=
  commands.foldl (fun machine command => (machine.obey command).1) machine

/-- The answers to commands, each with what can be seen afterwards. -/
def transcript (machine : Machine) : List Command → List (Reply × View)
  | [] => []
  | command :: rest =>
    match machine.obey command with
    | (next, some reply) => (reply, next.view) :: next.transcript rest
    | (next, none) => next.transcript rest

/-! ## Machines that cannot be told apart -/

/-- The machines differ at most in their garbage, in the handles of their contexts, and in their
activations as far as the pairing allows it. -/
def Paired (pairing : Pairing) (left right : Machine) : Prop :=
  ∃ link : Link, link.pairing = pairing ∧ link.Machines left right

/-- The machines differ at most in their garbage and in the handles of their contexts. -/
def Alike (left right : Machine) : Prop := left.Paired .same right

variable {pairing : Pairing} {left right : Machine}

theorem Paired.flip (paired : left.Paired pairing right) : right.Paired pairing.flip left := by
  obtain ⟨link, rfl, machines⟩ := paired
  exact ⟨link.flip, rfl, machines.flip⟩

theorem Paired.collectContexts (paired : left.Paired pairing right) :
    left.collectContexts.Paired pairing right := by
  obtain ⟨link, rfl, machines⟩ := paired
  exact machines.collectContexts

theorem Paired.collectGarbage (paired : left.Paired pairing right) :
    left.collectGarbage.Paired pairing right := by
  obtain ⟨link, rfl, machines⟩ := paired.collectContexts
  exact machines.collectObjects

theorem Alike.symm (alike : left.Alike right) : right.Alike left := by
  have flipped := Paired.flip alike
  rw [Pairing.flip_same] at flipped
  exact flipped

theorem Alike.collectContexts (alike : left.Alike right) : left.collectContexts.Alike right :=
  Paired.collectContexts alike

theorem Alike.collectGarbage (alike : left.Alike right) : left.collectGarbage.Alike right :=
  Paired.collectGarbage alike

/-- The machine after the collections that a step makes. -/
def tidied (machine : Machine) : Machine :=
  let lighter :=
    if machine.nextCollection ≤ machine.contexts.live then machine.collectContexts else machine
  if lighter.nextObjectCollection ≤ lighter.store.trackedCount then lighter.collectGarbage
  else lighter

theorem collectIfNeeded_eq (machine : Machine) :
    Exec.collectIfNeeded machine = .ok () machine.tidied := rfl

theorem frames_tidied (machine : Machine) : machine.tidied.frames = machine.frames := by
  unfold Machine.tidied
  dsimp only
  split <;> split <;> rfl

theorem Paired.tidied (paired : left.Paired pairing right) : left.tidied.Paired pairing right := by
  have lighter : (if left.nextCollection ≤ left.contexts.live then left.collectContexts
      else left).Paired pairing right := by
    split
    · exact paired.collectContexts
    · exact paired
  unfold Machine.tidied
  generalize (if left.nextCollection ≤ left.contexts.live then left.collectContexts
    else left) = collected at lighter ⊢
  dsimp only
  split
  · exact lighter.collectGarbage
  · exact lighter

theorem Alike.tidied (alike : left.Alike right) : left.tidied.Alike right :=
  Paired.tidied alike

theorem Alike.counted_tidied (alike : left.Alike left) :
    let counted := ({ left with steps := left.steps + 1 } : Machine).tidied
    counted.Alike counted := by
  obtain ⟨link, isSame, machines⟩ := alike
  have counted :
      Alike { left with steps := left.steps + 1 } { left with steps := left.steps + 1 } :=
    ⟨link, isSame, { machines with steps := fun _ => rfl }⟩
  exact counted.tidied.symm.tidied.symm

theorem operands_eq {link : Link} (machines : link.Machines left right) :
    left.operands = right.operands ∧ ∀ value ∈ left.operands, link.Knows value := by
  unfold operands
  rcases machines.frames_cases with ⟨leftNone, rightNone⟩ |
    ⟨leftFrame, leftRest, rightFrame, rightRest, leftFrames, rightFrames, frames, _⟩
  · rw [leftNone, rightNone]
    exact ⟨rfl, noneKnown⟩
  · obtain ⟨id, home, code, ip, context, loop, rfl⟩ := frames.shape
    rw [leftFrames, rightFrames]
    exact ⟨rfl, frames.stack⟩

theorem locals_eq {link : Link} (machines : link.Machines left right) :
    left.locals = right.locals ∧ ∀ value ∈ left.locals, link.Knows value := by
  have ofContexts : ∀ {leftId rightId : ContextId}, link.contexts leftId rightId →
      ∃ leftContext rightContext, left.contexts.get? leftId = some leftContext ∧
        right.contexts.get? rightId = some rightContext ∧
        leftContext.locals.toList = rightContext.locals.toList ∧
        ∀ value ∈ leftContext.locals.toList, link.Knows value := by
    intro leftId rightId linked
    obtain ⟨leftContext, rightContext, leftFound, rightFound, contexts⟩ :=
      machines.arenas.linked linked
    exact ⟨leftContext, rightContext, leftFound, rightFound, congrArg _ contexts.locals,
      fun value member => contexts.known value (Array.mem_toList_iff.mp member)⟩
  unfold locals
  rcases machines.frames_cases with ⟨leftNone, rightNone⟩ |
    ⟨leftFrame, leftRest, rightFrame, rightRest, leftFrames, rightFrames, frames, _⟩
  · obtain ⟨leftContext, rightContext, leftFound, rightFound, same, known⟩ :=
      ofContexts machines.sessionContext
    simp only [leftNone, rightNone, leftFound, rightFound]
    exact ⟨same, known⟩
  · obtain ⟨leftContext, rightContext, leftFound, rightFound, same, known⟩ :=
      ofContexts frames.context
    simp only [leftFrames, rightFrames, leftFound, rightFound]
    exact ⟨same, known⟩

theorem Alike.view (alike : left.Alike right) : left.view = right.view := by
  obtain ⟨link, same, machines⟩ := alike
  have samePrint : ∀ {values : List Value}, (∀ value ∈ values, link.Knows value) →
      values.map left.store.print = values.map right.store.print := fun known =>
    List.map_congr_left fun value member => machines.stores.print (known value member)
  obtain ⟨sameOperands, knownOperands⟩ := operands_eq machines
  obtain ⟨sameLocals, knownLocals⟩ := locals_eq machines
  have sameGlobals :
      (left.globals.entries.map fun entry => (entry.1, left.store.print entry.2)) =
        right.globals.entries.map fun entry => (entry.1, right.store.print entry.2) := by
    rw [← machines.globals]
    apply List.map_congr_left
    intro entry member
    rw [machines.stores.print (machines.globalValues _ (List.mem_map_of_mem member))]
  unfold Machine.view
  rw [samePrint knownOperands, samePrint knownLocals, sameOperands, sameLocals, sameGlobals,
    machines.output, machines.steps (same ▸ trivial)]

end Machine

/-! ## Steps -/

namespace Exec

variable {link : Link} {left right : Machine}

theorem agrees_countStep (machines : link.Machines left right) :
    Agrees link left right countStep countStep anyAnswer := by
  have counted : link.Machines { left with steps := left.steps + 1 }
      { right with steps := right.steps + 1 } :=
    { machines with steps := fun inStep => congrArg (· + 1) (machines.steps inStep) }
  refine agrees_modify_bind (Link.Within.refl link) (agrees_get_bind ?_)
  rw [← counted.maxSteps]
  rcases counted.unlimited with inStep | unlimited
  · rw [counted.steps inStep]
    split
    · split
      · exact agrees_throw counted (by nofun)
      · exact agrees_pure counted trivial
    · exact agrees_pure counted trivial
  · rw [unlimited]
    exact agrees_pure counted trivial

theorem get_bind {α : Type} {machine : Machine} (f : Machine → Exec α) :
    (get >>= f) machine = f machine machine := rfl

theorem modify_bind {α : Type} {machine : Machine} (change : Machine → Machine)
    (f : Unit → Exec α) : (modify change >>= f) machine = f () (change machine) := rfl

theorem eq_of_countStep {answer : Unit} {reached : Machine}
    (counted : countStep left = .ok answer reached) :
    reached = { left with steps := left.steps + 1 } := by
  unfold countStep at counted
  rw [modify_bind, get_bind] at counted
  cases isLimit : left.config.maxSteps with
  | none =>
      rw [isLimit] at counted
      cases counted
      rfl
  | some limit =>
      simp only [isLimit] at counted
      split at counted
      · cases counted
      · cases counted
        rfl

/-- Collections take place at the start of a step, where nothing is held on to but what the
machine holds on to. -/
theorem agreement_step {pairing : Pairing} (paired : left.Paired pairing right)
    (ready : pairing.ReadyAmong left.frames right.frames) :
    Agreement (fun link leftReached rightReached =>
        link.pairing = pairing ∧ link.Machines leftReached rightReached)
      (fun cause => cause ≠ .staleContext) sameAnswer (step left) (step right) := by
  obtain ⟨link, rfl, machines⟩ := paired
  rw [step_eq]
  refine Agreement.bind_of_ok (agrees_countStep machines)
    (fun ⟨within, reached⟩ => ⟨within.pairing, reached⟩) ?_
  intro counted leftCounted rightCounted _ _ leftOutcome rightOutcome ⟨within, reached⟩ _
  obtain ⟨later, isPairing, laterMachines⟩ :
      leftCounted.tidied.Paired link.pairing rightCounted.tidied :=
    (Machine.Paired.tidied (Machine.Paired.flip
      (Machine.Paired.tidied ⟨counted, within.pairing, reached⟩))).flip
  have sameFrames : leftCounted.tidied.frames = left.frames ∧
      rightCounted.tidied.frames = right.frames := by
    rw [Machine.frames_tidied, Machine.frames_tidied, eq_of_countStep leftOutcome,
      eq_of_countStep rightOutcome]
    exact ⟨rfl, rfl⟩
  have readyLater : later.pairing.ReadyAmong leftCounted.tidied.frames
      rightCounted.tidied.frames := by
    rw [sameFrames.1, sameFrames.2, isPairing]
    exact ready
  exact (agrees_instructionStep laterMachines readyLater).mono
    (fun ⟨within, machines⟩ => ⟨within.pairing.trans isPairing, machines⟩)
    (fun notStale => notStale) And.left

end Exec

namespace Machine

variable {pairing : Pairing} {left right : Machine}

/-- What came of a step, without the report of the activations under way. -/
def stepOutcome (machine : Machine) : Except Cause StepState := machine.step.2.mapError Fault.cause

/-- A step ends in the same way on both machines, and it does not meet a stale handle. -/
theorem Paired.step (paired : left.Paired pairing right)
    (ready : pairing.ReadyAmong left.frames right.frames) :
    left.stepOutcome = right.stepOutcome ∧ left.step.1.Paired pairing right.step.1 ∧
      ∀ fault, left.step.2 = .error fault → fault.cause ≠ .staleContext := by
  have agreement := Exec.agreement_step paired ready
  obtain ⟨link, rfl, machines⟩ := paired
  unfold stepOutcome Machine.step
  rcases machines.frames_cases with ⟨leftNone, rightNone⟩ |
    ⟨leftFrame, leftRest, rightFrame, rightRest, leftFrames, rightFrames, _⟩
  · rw [leftNone, rightNone, ← machines.result]
    cases left.result with
    | none =>
        refine ⟨rfl, ⟨link, rfl, machines⟩, ?_⟩
        rintro _ ⟨⟩
        decide
    | some value =>
        exact ⟨rfl, ⟨link, rfl, machines⟩, fun _ impossible => by cases impossible⟩
  · rw [leftFrames, rightFrames]
    generalize Exec.step left = leftResult, Exec.step right = rightResult at agreement ⊢
    cases agreement with
    | ok reached same =>
        cases same
        exact ⟨rfl, ⟨_, reached⟩, fun _ impossible => by cases impossible⟩
    | error reached notStale =>
        refine ⟨rfl, ⟨_, reached⟩, ?_⟩
        rintro _ ⟨⟩
        exact notStale

/-- A fault reports the activations that it leaves in place. -/
theorem trace_of_fault {fault : Fault} (failed : left.step.2 = .error fault) :
    fault = ⟨fault.cause, left.step.1.trace⟩ := by
  unfold Machine.step at failed ⊢
  split at failed
  · rename_i noFrames
    rw [if_pos noFrames]
    split at failed
    · cases failed
    · cases failed
      dsimp only [trace]
      rw [List.isEmpty_iff.mp noFrames]
      rfl
  · rename_i someFrames
    rw [if_neg someFrames]
    split at failed
    · cases failed
    · cases failed
      rfl

theorem Alike.trace_eq (alike : left.Alike right) : left.trace = right.trace := by
  obtain ⟨link, isSame, machines⟩ := alike
  have frames := machines.frames
  unfold trace
  generalize left.frames = leftFrames, right.frames = rightFrames at frames
  induction frames with
  | nil =>
      rfl
  | cons innermost below inductionHypothesis =>
      rw [List.map_cons, List.map_cons, inductionHypothesis]
      cases innermost.stands with
      | together together =>
          rw [together.samePlace, innermost.same]
      | apart _ impossible =>
          rw [isSame] at impossible
          exact impossible.elim

/-- A step has the same outcome on both machines, and it does not meet a stale handle. -/
theorem Alike.step (alike : left.Alike right) :
    left.step.2 = right.step.2 ∧ left.step.1.Alike right.step.1 ∧
      ∀ fault, left.step.2 = .error fault → fault.cause ≠ .staleContext := by
  obtain ⟨same, stepped, notStale⟩ := Paired.step alike fun _ _ _ _ => False.elim
  refine ⟨?_, stepped, notStale⟩
  have sameTrace := Alike.trace_eq stepped
  unfold stepOutcome at same
  cases leftOutcome : left.step.2 with
  | ok state =>
      cases rightOutcome : right.step.2 with
      | ok other =>
          rw [leftOutcome, rightOutcome] at same
          exact congrArg _ (Except.ok.inj same)
      | error fault =>
          rw [leftOutcome, rightOutcome] at same
          cases same
  | error fault =>
      cases rightOutcome : right.step.2 with
      | ok other =>
          rw [leftOutcome, rightOutcome] at same
          cases same
      | error other =>
          rw [leftOutcome, rightOutcome] at same
          rw [trace_of_fault leftOutcome, trace_of_fault rightOutcome, sameTrace]
          rw [show fault.cause = other.cause from Except.error.inj same]

theorem linkedRoot (link : Link) (name : String) :
    link.Objects (.classObject (ClassObject.root name)) (.classObject (ClassObject.root name)) :=
  Link.linkedClass nofun nofun

/-- New machines have the root class and the context of the session in common. -/
theorem Alike.new (config : Config) (threshold otherThreshold : Nat) (refusal : Option String) :
    (new { config with collectionThreshold := threshold } refusal).Alike
      (new { config with collectionThreshold := otherThreshold } refusal) := by
  let nothing : Link := ⟨fun _ _ _ => False, fun _ _ => False, .same⟩
  have noStores : nothing.Stores Store.empty Store.empty := ⟨rfl, False.elim⟩
  have noArenas : nothing.Arenas Arena.empty Arena.empty :=
    ⟨Arena.wellFormed_empty, Arena.wellFormed_empty, False.elim, False.elim, False.elim⟩
  obtain ⟨_, later, grows, has, stores⟩ := noStores.alloc (linkedRoot nothing rootClassName)
  have contexts : later.Contexts ⟨#[], none⟩ ⟨#[], none⟩ := ⟨rfl, nofun, .none⟩
  have within := Link.within_join later (Arena.empty.alloc ⟨#[], none⟩).1
    (Arena.empty.alloc ⟨#[], none⟩).1
  have isSame : (later.join (Arena.empty.alloc ⟨#[], none⟩).1
      (Arena.empty.alloc ⟨#[], none⟩).1).pairing = .same :=
    within.pairing.trans grows.within.pairing
  refine ⟨_, isSame, ⟨stores.join _ _, (noArenas.grow grows).alloc contexts, rfl, ?_,
    Or.inr ⟨rfl, rfl⟩, rfl, rfl, rfl, rfl⟩, .nil, fun _ => ?_, fun _ => rfl, Or.inl ?_, rfl, nofun⟩
  · exact oneKnown (within.knows (Link.knows_ref.mpr has))
  · rw [isSame]
    rfl
  · rw [isSame]
    trivial

/-- The linked machines with a program at its start. -/
theorem machines_start {link : Link} {leftContext rightContext : ContextId} (code : CodeUnit)
    (shared : link.pairing.shared) (machines : link.Machines left right)
    (linked : link.contexts leftContext rightContext) :
    link.Machines (left.start code leftContext) (right.start code rightContext) := by
  refine { machines with
    frames := .cons ?_ .nil
    result := rfl
    resultValue := nofun
    steps := fun _ => rfl
    numbers := fun count => ?_ }
  · exact ⟨rfl, link.pairing.unique (machines.numbers 0),
      .together ⟨rfl, rfl, Or.inl (machines.numbers 0), fun _ => shared⟩, noneKnown, linked,
      Link.knows_nil, nofun, .none⟩
  · have paired := machines.numbers (1 + count)
    rw [← Nat.add_assoc, ← Nat.add_assoc] at paired
    exact paired

theorem Alike.load (alike : left.Alike right) (code : CodeUnit) :
    (left.load code).2 = (right.load code).2 ∧ (left.load code).1.Alike (right.load code).1 := by
  obtain ⟨link, isSame, machines⟩ := alike
  unfold Machine.load
  split
  · exact ⟨rfl, link, isSame, machines⟩
  · have contexts : link.Contexts ⟨#[], none⟩ ⟨#[], none⟩ := ⟨rfl, nofun, .none⟩
    have joined := machines.remember (Link.within_join link _ _) (machines.stores.join _ _)
      (machines.arenas.alloc contexts)
    exact ⟨rfl, link.join _ _, isSame,
      machines_start code (isSame ▸ trivial) joined (Or.inr ⟨rfl, rfl⟩)⟩

theorem Alike.loadInSession (alike : left.Alike right) (code : CodeUnit) :
    (left.loadInSession code).2 = (right.loadInSession code).2 ∧
      (left.loadInSession code).1.Alike (right.loadInSession code).1 := by
  obtain ⟨link, isSame, machines⟩ := alike
  unfold Machine.loadInSession
  split
  · exact ⟨rfl, link, isSame, machines⟩
  · exact ⟨rfl, link, isSame,
      machines_start code (isSame ▸ trivial) machines machines.sessionContext⟩

/-! ## Runs -/

/-- A command that is answered gets the same answer from both machines. -/
theorem Alike.obey (alike : left.Alike right) {command : Command}
    (answered : command.collects = false) :
    ∃ reply, (left.obey command).2 = some reply ∧ (right.obey command).2 = some reply ∧
      (left.obey command).1.Alike (right.obey command).1 ∧
      ∀ fault, reply = .stepped (.error fault) → fault.cause ≠ .staleContext := by
  cases command with
  | load code =>
      obtain ⟨same, loaded⟩ := alike.load code
      exact ⟨.loaded (left.load code).2, rfl, congrArg (some ∘ Reply.loaded) same.symm, loaded,
        fun _ impossible => by cases impossible⟩
  | loadInSession code =>
      obtain ⟨same, loaded⟩ := alike.loadInSession code
      exact ⟨.loaded (left.loadInSession code).2, rfl, congrArg (some ∘ Reply.loaded) same.symm,
        loaded, fun _ impossible => by cases impossible⟩
  | step =>
      obtain ⟨same, stepped, notStale⟩ := alike.step
      refine ⟨.stepped left.step.2, rfl, congrArg (some ∘ Reply.stepped) same.symm, stepped, ?_⟩
      intro fault failed
      exact notStale fault (Reply.stepped.inj failed)
  | collect =>
      cases answered

theorem transcript_cons_of_collects (machine : Machine) {command : Command}
    (collects : command.collects = true) (rest : List Command) :
    machine.transcript (command :: rest) = machine.collectGarbage.transcript rest := by
  cases command with
  | collect =>
      rfl
  | load _ | loadInSession _ | step =>
      cases collects

theorem transcript_cons_of_answered (machine : Machine) {command : Command} {reply : Reply}
    (answered : (machine.obey command).2 = some reply) (rest : List Command) :
    machine.transcript (command :: rest) =
      (reply, (machine.obey command).1.view) :: (machine.obey command).1.transcript rest := by
  rw [transcript]
  generalize machine.obey command = obeyed at answered ⊢
  obtain ⟨next, answer⟩ := obeyed
  cases answered
  rfl

/-- Collections leave no trace in what is answered and seen. -/
theorem Alike.transcript (alike : left.Alike right) (commands : List Command) :
    left.transcript commands = right.transcript (commands.filter (!·.collects)) ∧
      ∀ entry ∈ left.transcript commands, ∀ fault, entry.1 = .stepped (.error fault) →
        fault.cause ≠ .staleContext := by
  induction commands generalizing left right with
  | nil =>
      exact ⟨rfl, fun _ impossible => (List.not_mem_nil impossible).elim⟩
  | cons command rest inductionHypothesis =>
      cases collects : command.collects with
      | true =>
          rw [transcript_cons_of_collects left collects,
            List.filter_cons_of_neg (by simp [collects])]
          exact inductionHypothesis alike.collectGarbage
      | false =>
          obtain ⟨reply, leftReply, rightReply, later, notStale⟩ := alike.obey collects
          obtain ⟨same, neverStale⟩ := inductionHypothesis later
          rw [List.filter_cons_of_pos (by simp [collects]),
            transcript_cons_of_answered left leftReply,
            transcript_cons_of_answered right rightReply, later.view, same]
          refine ⟨rfl, List.forall_mem_cons.mpr ⟨notStale, ?_⟩⟩
          rw [← same]
          exact neverStale

/-- Commands keep a machine like itself: everything that it holds on to is there. -/
theorem Alike.after (alike : left.Alike left) (commands : List Command) :
    (left.after commands).Alike (left.after commands) := by
  induction commands generalizing left with
  | nil =>
      exact alike
  | cons command rest inductionHypothesis =>
      apply inductionHypothesis
      cases collects : command.collects with
      | true =>
          cases command with
          | collect =>
              exact alike.collectGarbage.symm.collectGarbage
          | load _ | loadInSession _ | step =>
              cases collects
      | false =>
          obtain ⟨_, _, _, later, _⟩ := alike.obey collects
          exact later

/-! ## What can be reached stays -/

/-- A program that goes on can get at the context or the object. -/
inductive Reachable (machine : Machine) : Node → Prop
  | sessionContext : Reachable machine (.context machine.sessionContext)
  | frameContext {frame : Frame} : frame ∈ machine.frames →
      Reachable machine (.context frame.context)
  | operand {frame : Frame} {value : Value} {id : ObjectId} : frame ∈ machine.frames →
      value ∈ frame.stack → id ∈ value.references → Reachable machine (.object id)
  | receiver {frame : Frame} {id : ObjectId} : frame ∈ machine.frames →
      id ∈ frame.receiver.references → Reachable machine (.object id)
  | owner {frame : Frame} {id : ObjectId} : frame ∈ machine.frames → frame.owner = some id →
      Reachable machine (.object id)
  | pending {frame : Frame} {iteration : Iteration} {value : Value} {id : ObjectId} :
      frame ∈ machine.frames → frame.loop = some iteration → value ∈ iteration.values →
      id ∈ value.references → Reachable machine (.object id)
  | global {name : String} {value : Value} {id : ObjectId} :
      (name, value) ∈ machine.globals.entries → id ∈ value.references →
      Reachable machine (.object id)
  | result {value : Value} {id : ObjectId} : machine.result = some value →
      id ∈ value.references → Reachable machine (.object id)
  | outer {id outer : ContextId} {context : Context} : Reachable machine (.context id) →
      machine.contexts.get? id = some context → context.outer = some outer →
      Reachable machine (.context outer)
  | localVariable {id : ContextId} {context : Context} {value : Value} {reference : ObjectId} :
      Reachable machine (.context id) → machine.contexts.get? id = some context →
      value ∈ context.locals → reference ∈ value.references →
      Reachable machine (.object reference)
  /-- What an object refers to: elements, fields, class variables, superclasses. -/
  | reference {id reference : ObjectId} {object : Object} : Reachable machine (.object id) →
      machine.store.get? id = some object → reference ∈ object.references →
      Reachable machine (.object reference)
  | blockContext {id : ObjectId} {closure : Closure} : Reachable machine (.object id) →
      machine.store.get? id = some (.block closure) →
      Reachable machine (.context closure.outer)

/-- The context or the object is there before, and the same is there afterwards. -/
def Keeps (before after : Machine) : Node → Prop
  | .context id => ∃ context, before.contexts.get? id = some context ∧
      after.contexts.get? id = some context
  | .object id => ∃ object, before.store.get? id = some object ∧
      after.store.get? id = some object

variable {machine other : Machine} {node : Node}

theorem Keeps.trans {first second third : Machine} (earlier : first.Keeps second node)
    (later : second.Keeps third node) : first.Keeps third node := by
  cases node with
  | context id =>
      obtain ⟨context, atFirst, atSecond⟩ := earlier
      obtain ⟨_, same, atThird⟩ := later
      rw [atSecond] at same
      cases same
      exact ⟨context, atFirst, atThird⟩
  | object id =>
      obtain ⟨object, atFirst, atSecond⟩ := earlier
      obtain ⟨_, same, atThird⟩ := later
      rw [atSecond] at same
      cases same
      exact ⟨object, atFirst, atThird⟩

/-- The context or the object is linked. -/
def Linked (link : Link) : Node → Prop
  | .context id => ∃ partner, link.contexts id partner
  | .object id => link.Has id

theorem exists_partner {link : Link} {leftFrames rightFrames : List Frame}
    (frames : List.Forall₂ link.Frames leftFrames rightFrames) {frame : Frame}
    (member : frame ∈ leftFrames) : ∃ partner, link.Frames frame partner := by
  induction frames with
  | nil =>
      exact (List.not_mem_nil member).elim
  | cons innermost below inductionHypothesis =>
      rcases List.mem_cons.mp member with rfl | isBelow
      · exact ⟨_, innermost⟩
      · exact inductionHypothesis isBelow

/-- Everything that a program can get at is linked. -/
theorem Reachable.linked {link : Link} (machines : link.Machines machine other)
    (reachable : machine.Reachable node) : Linked link node := by
  have ofFrame : ∀ {frame : Frame}, frame ∈ machine.frames →
      ∃ partner, link.Frames frame partner := exists_partner machines.frames
  induction reachable with
  | sessionContext =>
      exact ⟨_, machines.sessionContext⟩
  | frameContext isFrame =>
      obtain ⟨partner, frames⟩ := ofFrame isFrame
      exact ⟨_, frames.context⟩
  | operand isFrame inStack reference =>
      obtain ⟨partner, frames⟩ := ofFrame isFrame
      exact frames.stack _ inStack _ reference
  | receiver isFrame reference =>
      obtain ⟨partner, frames⟩ := ofFrame isFrame
      exact frames.receiver _ reference
  | owner isFrame isOwner =>
      obtain ⟨partner, frames⟩ := ofFrame isFrame
      exact frames.owner _ isOwner
  | pending isFrame isLoop inLoop reference =>
      obtain ⟨partner, frames⟩ := ofFrame isFrame
      refine frames.known _ ?_ _ reference
      simp [Frame.values, isLoop, inLoop]
  | global isEntry reference =>
      exact machines.globalValues _ (List.mem_map_of_mem isEntry) _ reference
  | result isResult reference =>
      exact machines.resultValue _ isResult _ reference
  | outer _ found isOuter inductionHypothesis =>
      obtain ⟨partner, linked⟩ := inductionHypothesis
      obtain ⟨context, partnerContext, isContext, _, contexts⟩ := machines.arenas.linked linked
      rw [found] at isContext
      cases isContext
      have outers := contexts.outers
      rw [isOuter] at outers
      generalize partnerContext.outer = partnerOuter at outers
      cases outers with
      | some outerLinked =>
          exact ⟨_, outerLinked⟩
  | localVariable _ found isLocal reference inductionHypothesis =>
      obtain ⟨partner, linked⟩ := inductionHypothesis
      obtain ⟨context, _, isContext, _, contexts⟩ := machines.arenas.linked linked
      rw [found] at isContext
      cases isContext
      exact contexts.known _ isLocal _ reference
  | reference _ found isReference inductionHypothesis =>
      obtain ⟨object, _, isObject, _, _, objects⟩ := machines.stores.get inductionHypothesis
      rw [found] at isObject
      cases isObject
      exact objects.has_of_reference isReference
  | blockContext _ found inductionHypothesis =>
      obtain ⟨object, partnerObject, isObject, _, _, objects⟩ :=
        machines.stores.get inductionHypothesis
      rw [found] at isObject
      cases isObject
      exact objects.linked_context (List.mem_singleton.mpr rfl)

/-- Everything that a program can get at is found by the search from the roots. -/
theorem Reachable.reaches (alike : machine.Alike other) (reachable : machine.Reachable node) :
    machine.Reaches node := by
  obtain ⟨link, _, machines⟩ := alike
  have linked := reachable.linked machines.restrict
  cases node with
  | context id =>
      obtain ⟨_, _, reached⟩ := linked
      exact reached
  | object id =>
      obtain ⟨_, _, _, reached⟩ := linked
      exact reached

theorem Reaches.keeps_collectContexts (reached : machine.Reaches node) :
    machine.Keeps machine.collectContexts node := by
  have present := reached.present
  cases node with
  | context id =>
      obtain ⟨context, found⟩ := Option.isSome_iff_exists.mp present
      exact ⟨context, found, ((Arena.get?_collect id).trans (if_pos reached)).trans found⟩
  | object id =>
      obtain ⟨object, found⟩ := Option.isSome_iff_exists.mp present
      exact ⟨object, found, found⟩

theorem Reaches.keeps_collectObjects (reached : machine.Reaches node) :
    machine.Keeps machine.collectObjects node := by
  have present := reached.present
  cases node with
  | context id =>
      obtain ⟨context, found⟩ := Option.isSome_iff_exists.mp present
      exact ⟨context, found, found⟩
  | object id =>
      obtain ⟨object, found⟩ := Option.isSome_iff_exists.mp present
      exact ⟨object, found, (Store.get?_collect_of_held reached.held).trans found⟩

/-- A collection of contexts takes nothing out of reach. -/
theorem Reachable.collectContexts (alike : machine.Alike other)
    (reachable : machine.Reachable node) : machine.collectContexts.Reachable node := by
  have sameContext : ∀ {id : ContextId} {context : Context}, machine.Reachable (.context id) →
      machine.contexts.get? id = some context →
      machine.collectContexts.contexts.get? id = some context := by
    intro id context reachable found
    obtain ⟨_, before, afterwards⟩ := (reachable.reaches alike).keeps_collectContexts
    rw [found] at before
    cases before
    exact afterwards
  induction reachable with
  | sessionContext => exact .sessionContext
  | frameContext isFrame => exact .frameContext isFrame
  | operand isFrame inStack reference => exact .operand isFrame inStack reference
  | receiver isFrame reference => exact .receiver isFrame reference
  | owner isFrame isOwner => exact .owner isFrame isOwner
  | pending isFrame isLoop inLoop reference => exact .pending isFrame isLoop inLoop reference
  | global isEntry reference => exact .global isEntry reference
  | result isResult reference => exact .result isResult reference
  | outer before found isOuter inductionHypothesis =>
      exact .outer inductionHypothesis (sameContext before found) isOuter
  | localVariable before found isLocal reference inductionHypothesis =>
      exact .localVariable inductionHypothesis (sameContext before found) isLocal reference
  | reference _ found isReference inductionHypothesis =>
      exact .reference inductionHypothesis found isReference
  | blockContext _ found inductionHypothesis =>
      exact .blockContext inductionHypothesis found

theorem Reachable.keeps_collectGarbage (alike : machine.Alike other)
    (reachable : machine.Reachable node) : machine.Keeps machine.collectGarbage node :=
  (reachable.reaches alike).keeps_collectContexts.trans
    ((reachable.collectContexts alike).reaches alike.collectContexts).keeps_collectObjects

theorem Reachable.keeps_tidied (alike : machine.Alike other) (reachable : machine.Reachable node) :
    machine.Keeps machine.tidied node := by
  have kept := (reachable.reaches alike).keeps_collectContexts
  have unchanged : machine.Keeps machine node := by
    cases node with
    | context id =>
        obtain ⟨context, found, _⟩ := kept
        exact ⟨context, found, found⟩
    | object id =>
        obtain ⟨object, found, _⟩ := kept
        exact ⟨object, found, found⟩
  unfold Machine.tidied
  dsimp only
  split
  · split
    · exact kept.trans ((reachable.collectContexts alike).keeps_collectGarbage
        alike.collectContexts)
    · exact kept
  · split
    · exact reachable.keeps_collectGarbage alike
    · exact unchanged

end Machine

/-! ## The whole statement -/

namespace Machine

/-- Neither the threshold for collections nor collections in between change what a machine
answers and what can be seen of it.  No step finds a stale handle.  And at no time would a
collection, whether asked for or made by a step, change what can be seen or touch a context or an
object that a program can get at. -/
theorem transcript_of_collections (config : Config) (refusal : Option String)
    (threshold otherThreshold : Nat) (commands : List Command) :
    let machine := new { config with collectionThreshold := threshold } refusal
    let other := new { config with collectionThreshold := otherThreshold } refusal
    machine.transcript commands = other.transcript (commands.filter (!·.collects)) ∧
      (∀ entry ∈ machine.transcript commands, ∀ fault, entry.1 = .stepped (.error fault) →
        fault.cause ≠ .staleContext) ∧
      let reached := machine.after commands
      reached.collectGarbage.view = reached.view ∧
        ∀ node, reached.Reachable node →
          reached.Keeps reached.collectGarbage node ∧ reached.Keeps reached.tidied node := by
  intro machine other
  obtain ⟨same, neverStale⟩ :=
    (Alike.new config threshold otherThreshold refusal).transcript commands
  have alike : (machine.after commands).Alike (machine.after commands) :=
    (Alike.new config threshold threshold refusal).after commands
  exact ⟨same, neverStale, alike.collectGarbage.view, fun node reachable =>
    ⟨reachable.keeps_collectGarbage alike, reachable.keeps_tidied alike⟩⟩

end Machine

end Missive
