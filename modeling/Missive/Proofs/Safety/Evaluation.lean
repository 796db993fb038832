import Missive.Proofs.Alike.Transcript
import Missive.Proofs.Safety.Execution
import Missive.Proofs.Safety.Lowering
import Missive.Proofs.Steps.Crashes

/-!
# Programs that compile fail only by their own fault

A machine evaluates one program after the other.  Whatever these programs are, a step of one of
them never finds a stack without the operands it needs, an operand that refers to nothing, a method
without its class or a receiver without fields, a stale handle, or nothing to run.  What can still
be reported is a fault of the program itself, or a limit of the machine.

That something is reported at all is not certain.  A step can make the machine go down, but only if
it compares values and this has no end, if it stores or removes an entry of a dictionary of which
one of the keys involves the dictionary, or if it asks for more integers than a list can hold.
-/

namespace Missive

namespace Machine

variable {machine : Machine}

/-! ## Steps -/

theorem Ready.kept (ready : machine.Ready) : machine.Kept := by
  obtain ⟨_, _, _, poised⟩ := ready
  exact poised.toKept

theorem Ready.collectContexts (ready : machine.Ready) : machine.collectContexts.Ready := by
  obtain ⟨current, setting, layout, poised⟩ := ready
  have collected := poised.withContexts
    (Arena.retains_collect machine.store machine.rootContexts machine.rootValues).keeps
    poised.heap.wellFormed.collect
  exact ⟨current, setting, layout, ⟨collected.heap, collected.session⟩, collected.frames,
    collected.current⟩

theorem Ready.collectObjects (ready : machine.Ready) : machine.collectObjects.Ready := by
  obtain ⟨current, setting, layout, poised⟩ := ready
  have inherits := Store.inherits_collect machine.store machine.outsideReferences
  have collected := poised.withStore (poised.heap.inherits inherits) inherits.preserves
  exact ⟨current, setting, layout, ⟨collected.heap, collected.session⟩, collected.frames,
    collected.current⟩

theorem Ready.tidied (ready : machine.Ready) : machine.tidied.Ready := by
  have lighter : (if machine.nextCollection ≤ machine.contexts.live then machine.collectContexts
      else machine).Ready := by
    split
    · exact ready.collectContexts
    · exact ready
  unfold Machine.tidied
  generalize (if machine.nextCollection ≤ machine.contexts.live then machine.collectContexts
    else machine) = collected at lighter ⊢
  dsimp only
  split
  · exact lighter.collectContexts.collectObjects
  · exact lighter

end Machine

namespace Exec

variable {machine : Machine}

theorem settles_countStep (ready : machine.Ready) :
    Settles machine countStep fun _ reached => reached.Ready := by
  obtain ⟨current, setting, layout, poised⟩ := ready
  have counted : Machine.Ready { machine with steps := machine.steps + 1 } :=
    ⟨current, setting, layout, ⟨poised.heap, poised.session⟩, poised.frames, poised.current⟩
  refine settles_modify_bind (settles_get_bind ?_)
  split
  · split
    · exact settles_throw counted.kept rfl
    · exact settles_pure counted
  · exact settles_pure counted

theorem settles_step (ready : machine.Ready) (alike : machine.Alike machine) :
    Settles machine step Onward := by
  obtain ⟨link, isSame, machines⟩ := alike.counted_tidied
  rw [step_eq]
  refine (settles_countStep ready).bind fun counted readyAfter => ?_
  obtain rfl := eq_of_countStep counted
  exact settles_instructionStep readyAfter.tidied isSame machines

end Exec

namespace Machine

variable {machine : Machine}

theorem Ready.running (ready : machine.Ready) : machine.frames.isEmpty = false := by
  obtain ⟨_, _, _, poised⟩ := ready
  obtain ⟨rest, frames, _⟩ := poised.frames
  rw [frames]
  rfl

/-- A step leads on, or it fails by a fault of the program. -/
theorem step_of_ready (ready : machine.Ready) (alike : machine.Alike machine) :
    (∀ state, machine.step.2 = .ok state → Exec.Onward state machine.step.1) ∧
      ∀ fault, machine.step.2 = .error fault →
        machine.step.1.Kept ∧ fault.cause.isInternal = false := by
  have neverStale := alike.step.2.2
  have settles := Exec.settles_step ready alike
  unfold Exec.Settles at settles
  unfold Machine.step at neverStale ⊢
  rw [ready.running] at neverStale ⊢
  generalize Exec.step machine = result at settles neverStale ⊢
  cases settles with
  | ok onward =>
      refine ⟨fun state same => ?_, fun _ impossible => by cases impossible⟩
      cases same
      exact onward
  | error kept tolerated =>
      refine ⟨fun _ impossible => (by cases impossible), fun fault same => ?_⟩
      cases same
      rcases tolerated with external | stale
      · exact ⟨kept, external⟩
      · exact (neverStale _ rfl stale).elim

/-! ## Runs -/

/-- What holds of a machine between two programs. -/
structure Settled (machine : Machine) : Prop where
  kept : machine.Kept
  alike : machine.Alike machine

/-- A run ends between two programs, and what it reports is a fault of the program. -/
theorem finish_of_ready (ready : machine.Ready) (alike : machine.Alike machine) (fuel : Nat) :
    (machine.finish fuel).1.Settled ∧ ∀ fault, (machine.finish fuel).2 = some (.error fault) →
      fault.cause.isInternal = false := by
  induction fuel generalizing machine with
  | zero =>
      exact ⟨⟨ready.kept, alike⟩, fun _ impossible => by cases impossible⟩
  | succ fuel inductionHypothesis =>
      obtain ⟨onward, failed⟩ := step_of_ready ready alike
      have later := alike.step.2.1
      unfold finish
      generalize machine.step = stepped at onward failed later ⊢
      obtain ⟨next, outcome⟩ := stepped
      cases outcome with
      | ok state =>
          have isOnward := onward state rfl
          cases state with
          | running =>
              exact inductionHypothesis isOnward later
          | finished value =>
              exact ⟨⟨isOnward, later⟩, fun _ impossible => by cases impossible⟩
      | error fault =>
          obtain ⟨kept, external⟩ := failed fault rfl
          refine ⟨⟨kept, later⟩, fun other same => ?_⟩
          cases same
          exact external

theorem ready_start_in (kept : machine.Kept) {context : ContextId}
    (issued : machine.contexts.Issued context) {code : CodeUnit} (safe : code.Safe .topLevel) :
    (machine.start code context).Ready := by
  let frame : Frame :=
    { id := ⟨machine.lastFrame + 1⟩, home := ⟨machine.lastFrame + 1⟩, kind := .topLevel, code
      ip := 0, stack := [], context, receiver := .nil, owner := none
      classSide := false, label := topLevelLabel, loop := none }
  have nested : machine.contexts.Nested Setting.topLevel.depth frame.context := issued
  have stands : Stands machine.store .topLevel frame.receiver frame.owner frame.classSide :=
    ⟨nofun, nofun, nofun⟩
  obtain ⟨setting, layout, typed⟩ := Frame.ready_of_start safe rfl rfl nested stands
  exact ⟨frame, setting, layout, ⟨kept.heap, kept.session⟩,
    ⟨[], rfl, fun _ impossible => (List.not_mem_nil impossible).elim⟩, typed⟩

theorem ready_start (kept : machine.Kept) {code : CodeUnit} (safe : code.Safe .topLevel) :
    (machine.start code machine.sessionContext).Ready :=
  ready_start_in kept kept.session safe

theorem Alike.withSession (alike : machine.Alike machine) (session : Session) :
    Alike { machine with session } { machine with session } := by
  obtain ⟨link, isSame, machines⟩ := alike
  exact ⟨link, isSame, { machines with }⟩

/-- Evaluating a program is safe. -/
theorem Settled.eval (settled : machine.Settled) (fuel : Nat) {program : Program}
    (small : program.collectionsFit = true) :
    (machine.eval fuel program).1.Settled ∧
      ∀ fault, (machine.eval fuel program).2 = some (.error (.run fault)) →
        fault.cause.isInternal = false := by
  unfold Machine.eval
  split
  · exact ⟨settled, fun _ impossible => by cases impossible⟩
  · rename_i session code compiled
    have safe := Session.safe_compile small compiled
    have alike := settled.alike.withSession session
    have kept : Kept { machine with session } := ⟨settled.kept.heap, settled.kept.session⟩
    have loaded := (alike.loadInSession code).2
    unfold runInSession loadInSession at *
    cases verified : code.verify with
    | error fault =>
        simp only [finishLoaded]
        refine ⟨⟨kept, alike⟩, fun _ same => ?_⟩
        cases same
        rfl
    | ok _ =>
        simp only [verified, finishLoaded] at loaded ⊢
        obtain ⟨settledAfter, external⟩ := finish_of_ready (ready_start kept safe) loaded fuel
        refine ⟨settledAfter, fun fault same => external fault ?_⟩
        obtain ⟨result, isResult, mapped⟩ := Option.map_eq_some_iff.mp same
        cases result with
        | ok value =>
            cases mapped
        | error found =>
            cases mapped
            exact isResult

/-! ## The whole statement -/

theorem settled_new (config : Config) (refusal : Option String) :
    (Machine.new config refusal).Settled := by
  have emptyHeap : Heap Store.empty (Arena.empty.alloc ⟨#[], none⟩).2 :=
    ⟨Arena.wellFormed_empty.alloc _, fun found => by cases found⟩
  have noMethods : ∀ method ∈ ([] : List MethodDescriptor), ∀ side : Bool,
      method.body.Safe (.method side) := fun _ impossible => (List.not_mem_nil impossible).elim
  refine ⟨⟨emptyHeap.alloc (.classObject ?_ ?_), Arena.issued_alloc Arena.wellFormed_empty _⟩,
    Alike.new config _ _ refusal⟩
  · exact fun method member => noMethods method member false
  · exact fun method member => noMethods method member true

/-- The outcomes of programs that are evaluated one after the other, each with its fuel. -/
def outcomes (machine : Machine) : List (Nat × Program) → List (Option (Except EvalError Value))
  | [] => []
  | (fuel, program) :: rest =>
    let (next, outcome) := machine.eval fuel program
    outcome :: next.outcomes rest

/-- The machines from which the steps are taken when a program is evaluated. -/
def evalStages (machine : Machine) (fuel : Nat) (program : Program) : List Machine :=
  match machine.session.compile program with
  | (_, .error _) => []
  | (session, .ok code) =>
    match ({ machine with session } : Machine).loadInSession code with
    | (loaded, .ok _) => loaded.stages fuel
    | (_, .error _) => []

/-- The machines from which the steps are taken when programs are evaluated one after the other. -/
def outcomesStages (machine : Machine) : List (Nat × Program) → List Machine
  | [] => []
  | (fuel, program) :: rest =>
    machine.evalStages fuel program ++ (machine.eval fuel program).1.outcomesStages rest

theorem exists_provoking_evalStage {fuel : Nat} {program : Program} {fault : Fault} {crash : Crash}
    (failed : (machine.eval fuel program).2 = some (.error (.run fault)))
    (isCrash : fault.cause = .crash crash) :
    ∃ stage ∈ machine.evalStages fuel program,
      stage.step.2 = .error fault ∧ stage.Provokes crash := by
  unfold eval at failed
  unfold evalStages
  generalize machine.session.compile program = compiled at failed ⊢
  obtain ⟨session, error | code⟩ := compiled
  · cases failed
  · obtain ⟨result, isResult, mapped⟩ := Option.map_eq_some_iff.mp failed
    cases result with
    | ok value =>
        cases mapped
    | error found =>
        cases mapped
        unfold runInSession loadInSession at isResult
        unfold loadInSession
        cases verified : code.verify with
        | error refused =>
            rw [verified] at isResult
            cases isResult
            cases isCrash
        | ok _ =>
            rw [verified] at isResult
            simp only [verified]
            exact exists_provoking_stage (Prod.ext rfl isResult) isCrash

theorem exists_provoking_outcomesStage {programs : List (Nat × Program)} {fault : Fault}
    {crash : Crash} (isOutcome : some (.error (.run fault)) ∈ machine.outcomes programs)
    (isCrash : fault.cause = .crash crash) :
    ∃ stage ∈ machine.outcomesStages programs,
      stage.step.2 = .error fault ∧ stage.Provokes crash := by
  induction programs generalizing machine with
  | nil =>
      exact (List.not_mem_nil isOutcome).elim
  | cons entry rest inductionHypothesis =>
      obtain ⟨fuel, program⟩ := entry
      rcases List.mem_cons.mp isOutcome with isFirst | isLater
      · obtain ⟨stage, isStage, provokes⟩ := exists_provoking_evalStage isFirst.symm isCrash
        exact ⟨stage, List.mem_append_left _ isStage, provokes⟩
      · obtain ⟨stage, isStage, provokes⟩ := inductionHypothesis isLater
        exact ⟨stage, List.mem_append_right _ isStage, provokes⟩

theorem Settled.outcomes (settled : machine.Settled) {programs : List (Nat × Program)}
    (small : ∀ entry ∈ programs, entry.2.collectionsFit = true) :
    ∀ outcome ∈ machine.outcomes programs, ∀ fault, outcome = some (.error (.run fault)) →
      fault.cause.isInternal = false := by
  induction programs generalizing machine with
  | nil =>
      exact fun _ impossible => (List.not_mem_nil impossible).elim
  | cons entry rest inductionHypothesis =>
      obtain ⟨fuel, program⟩ := entry
      obtain ⟨smallProgram, smallRest⟩ := List.forall_mem_cons.mp small
      obtain ⟨settledAfter, external⟩ := settled.eval fuel smallProgram
      exact List.forall_mem_cons.mpr ⟨external, inductionHypothesis settledAfter smallRest⟩

/-- On a new machine, whatever its limits, no program of any sequence that is evaluated meets a
fault of the code or of the machine, as long as an operand can say how many elements each of its
collections has.  A program that compiles fails for a reason of its own, or the machine goes down in
a step whose instruction makes it do so. -/
theorem outcomes_not_internal (config : Config) (refusal : Option String)
    (programs : List (Nat × Program))
    (small : ∀ entry ∈ programs, entry.2.collectionsFit = true) :
    ∀ outcome ∈ (Machine.new config refusal).outcomes programs, ∀ fault,
      outcome = some (.error (.run fault)) →
        fault.cause.isInternal = false ∧ ∀ crash, fault.cause = .crash crash →
          ∃ stage ∈ (Machine.new config refusal).outcomesStages programs,
            stage.step.2 = .error fault ∧ stage.Provokes crash := by
  intro outcome isOutcome fault failed
  refine ⟨(settled_new config refusal).outcomes small outcome isOutcome fault failed, ?_⟩
  intro crash isCrash
  exact exists_provoking_outcomesStage (failed ▸ isOutcome) isCrash

/-- Three programs.  The second asks for a variable that nobody has set, and the third stores an
entry of a dictionary that is one of its own keys. -/
theorem outcomes_not_internal_undefined :
    let programs : List (Nat × Program) :=
      [(9, [.expr (.array [.literal (.int 1), .block [] [.return .self]])]),
        (9, [.expr (.send (.literal .nil) "foo:" [.var "x"])]),
        (30, [.declare ["d"], .expr (.assign "d" (.dictionary [])),
          .expr (.send (.var "d") "at:put:" [.var "d", .literal (.int 1)]),
          .expr (.send (.var "d") "at:put:" [.dictionary [], .literal (.int 2)])])]
    let undefined : Fault := ⟨.undefinedGlobal "x", [⟨topLevelLabel, 1⟩]⟩
    let crashed : Fault := ⟨.crash .alreadyBorrowed, [⟨topLevelLabel, 11⟩]⟩
    (Machine.new {} none).outcomes programs =
        [some (.ok (.ref ⟨2⟩)), some (.error (.run undefined)), some (.error (.run crashed))] ∧
      undefined.cause.isInternal = false ∧ crashed.cause.isInternal = false ∧
      ∃ stage ∈ (Machine.new {} none).outcomesStages programs,
        stage.step.2 = .error crashed ∧ stage.Provokes .alreadyBorrowed := by
  intro programs undefined crashed
  have ended : (Machine.new {} none).outcomes programs =
      [some (.ok (.ref ⟨2⟩)), some (.error (.run undefined)), some (.error (.run crashed))] := by
    decide +kernel
  have holds := outcomes_not_internal {} none programs (by decide)
  rw [ended] at holds
  obtain ⟨external, goesDown⟩ := holds _ (by simp) crashed rfl
  exact ⟨ended, (holds _ (by simp) undefined rfl).1, external, goesDown _ rfl⟩

end Machine

end Missive
