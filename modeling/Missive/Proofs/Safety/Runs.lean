import Missive.Proofs.Classes.Representation
import Missive.Proofs.Safety.Evaluation

/-!
# Runs of compiled programs

Programs are compiled and loaded one after the other, and each takes steps until it ends or a step
fails.  A step that fails leaves the operands of a message half taken, and nobody goes on from
there: the next step is the first one of another program.

In such a run every step starts where the code counts on it to start.  The operands that the next
instruction needs are there, and so is the receiver below the arguments of a message.
-/

namespace Missive

/-- Every unit that is loaded was compiled, and an operand can say how many elements each of its
collections has. -/
def LoadsCompiled (commands : List Command) : Prop :=
  ∀ command ∈ commands, ∀ unit, command.unit? = some unit →
    ∃ (session final : Session) (program : Program),
      session.compile program = (final, .ok unit) ∧ program.collectionsFit = true

/-- The command starts a program. -/
def Command.Starts (command : Command) : Prop :=
  ∃ unit, command.unit? = some unit ∧ unit.verify = .ok ()

namespace Machine

/-- A program goes on only where its last step has left it running. -/
def Orderly (start : Machine) (commands : List Command) : Prop :=
  ∀ earlier between later, commands = earlier ++ .step :: (between ++ .step :: later) →
    (∀ command ∈ between, ¬ command.Starts) → (start.after earlier).step.2 = .ok .running

/-- The last program that was started has ended or failed. -/
def Stopped (start : Machine) (commands : List Command) : Prop :=
  ∃ earlier between, commands = earlier ++ .step :: between ∧
    (∀ command ∈ between, ¬ command.Starts) ∧ (start.after earlier).step.2 ≠ .ok .running

variable {start machine after : Machine} {commands : List Command}

theorem Orderly.initial {more : List Command} (orderly : start.Orderly (commands ++ more)) :
    start.Orderly commands := by
  intro earlier between later split noStart
  refine orderly earlier between (later ++ more) ?_ noStart
  rw [split]
  simp

theorem Stopped.append {command : Command} (stopped : start.Stopped commands)
    (noStart : ¬ command.Starts) : start.Stopped (commands ++ [command]) := by
  obtain ⟨earlier, between, rfl, quiet, ended⟩ := stopped
  refine ⟨earlier, between ++ [command], by simp, fun other member => ?_, ended⟩
  rcases List.mem_append.mp member with before | last
  · exact quiet other before
  · exact List.mem_singleton.mp last ▸ noStart

/-- After a program has stopped, no step is taken before the next one is started. -/
theorem Stopped.not_step (stopped : start.Stopped commands) :
    ¬ start.Orderly (commands ++ [.step]) := by
  intro orderly
  obtain ⟨earlier, between, rfl, quiet, ended⟩ := stopped
  exact ended (orderly earlier between [] (by simp) quiet)

theorem Kept.quiet (kept : machine.Kept) (quiet : Quiet machine after) : after.Kept := by
  refine ⟨(kept.heap.inherits quiet.inherits).keeps quiet.contexts.keeps
    (quiet.wellFormed kept.heap.wellFormed), ?_⟩
  rw [quiet.sessionContext]
  exact quiet.contexts.keeps.issued kept.session

/-- What holds between any two commands of a run. -/
structure Tended (start : Machine) (commands : List Command) (machine : Machine) : Prop where
  kept : machine.Kept
  state : machine.frames = [] ∨ machine.Ready ∨ start.Stopped commands

/-- A command that leaves everything as it is, or nearly so. -/
theorem Tended.quiet {command : Command} (tended : Tended start commands machine)
    (quiet : Quiet machine after) (ready : machine.Ready → after.Ready)
    (noStart : ¬ command.Starts) : Tended start (commands ++ [command]) after := by
  refine ⟨tended.kept.quiet quiet, ?_⟩
  rcases tended.state with none | isReady | stopped
  · exact Or.inl (quiet.frames.trans none)
  · exact Or.inr (Or.inl (ready isReady))
  · exact Or.inr (Or.inr (stopped.append noStart))

theorem Tended.step (tended : Tended start commands machine)
    (isMachine : machine = start.after commands) (alike : machine.Alike machine)
    (orderly : start.Orderly (commands ++ [.step])) :
    Tended start (commands ++ [.step]) machine.step.1 := by
  have stopped : machine.step.2 ≠ .ok .running → start.Stopped (commands ++ [.step]) :=
    fun ended => ⟨commands, [], rfl, fun _ impossible => (List.not_mem_nil impossible).elim,
      isMachine ▸ ended⟩
  rcases tended.state with none | ready | wasStopped
  · have unchanged : machine.step.1 = machine ∧ machine.step.2 ≠ .ok .running := by
      unfold Machine.step
      rw [none]
      cases machine.result <;> exact ⟨rfl, nofun⟩
    rw [unchanged.1]
    exact ⟨tended.kept, Or.inr (Or.inr (stopped unchanged.2))⟩
  · obtain ⟨onward, failed⟩ := step_of_ready ready alike
    cases ended : machine.step.2 with
    | error fault =>
        exact ⟨(failed fault ended).1, Or.inr (Or.inr (stopped (by simp [ended])))⟩
    | ok state =>
        have further := onward state ended
        cases state with
        | running =>
            exact ⟨Ready.kept further, Or.inr (Or.inl further)⟩
        | finished value =>
            exact ⟨further, Or.inr (Or.inr (stopped (by simp [ended])))⟩
  · exact (wasStopped.not_step orderly).elim

/-- A program that starts. -/
theorem Tended.begin {unit : CodeUnit} {context : ContextId} {contexts : Arena}
    (tended : Tended start commands machine) (safe : unit.Safe .topLevel)
    (keeps : machine.contexts.Keeps contexts) (wellFormed : contexts.WellFormed)
    (issued : contexts.Issued context) (more : List Command) :
    Tended start (commands ++ more) ({ machine with contexts }.start unit context) := by
  have kept : Kept { machine with contexts } := tended.kept.withContexts keeps wellFormed
  have ready := ready_start_in kept issued safe
  exact ⟨ready.kept, Or.inr (Or.inl ready)⟩

theorem LoadsCompiled.safe (compiled : LoadsCompiled commands) {command : Command} {unit : CodeUnit}
    (member : command ∈ commands) (isUnit : command.unit? = some unit) : unit.Safe .topLevel := by
  obtain ⟨session, final, program, isCompiled, small⟩ := compiled command member unit isUnit
  exact Session.safe_compile small isCompiled

theorem tended_after (config : Config) (refusal : Option String) {commands : List Command}
    (compiled : LoadsCompiled commands) (orderly : (new config refusal).Orderly commands) :
    Tended (new config refusal) commands ((new config refusal).after commands) := by
  induction commands using List.reverseRecOn with
  | nil =>
      exact ⟨(settled_new config refusal).kept, Or.inl rfl⟩
  | append_singleton earlier command inductionHypothesis =>
      have tended := inductionHypothesis (fun other member => compiled other (by simp [member]))
        orderly.initial
      have alike := alike_after config refusal earlier
      have refused : ∀ {unit fault}, command.unit? = some unit → unit.verify = .error fault →
          ¬ command.Starts := by
        rintro unit fault isUnit failed ⟨other, same, verified⟩
        cases isUnit.symm.trans same
        cases failed.symm.trans verified
      rw [after_append]
      generalize isMachine : (new config refusal).after earlier = machine at *
      cases command with
      | load unit =>
          have safe := LoadsCompiled.safe compiled (List.mem_append_right _ List.mem_cons_self) rfl
          change Tended _ _ (machine.load unit).1
          unfold load
          cases verified : unit.verify with
          | error fault =>
              exact tended.quiet .ofOutput id (refused rfl verified)
          | ok _ =>
              have wellFormed := tended.kept.heap.wellFormed
              exact tended.begin safe (Arena.keeps_alloc wellFormed _) (wellFormed.alloc _)
                (Arena.issued_alloc wellFormed _) _
      | loadInSession unit =>
          have safe := LoadsCompiled.safe compiled (List.mem_append_right _ List.mem_cons_self) rfl
          change Tended _ _ (machine.loadInSession unit).1
          unfold loadInSession
          cases verified : unit.verify with
          | error fault =>
              exact tended.quiet .ofOutput id (refused rfl verified)
          | ok _ =>
              exact tended.begin safe (.refl _) tended.kept.heap.wellFormed tended.kept.session _
      | step =>
          exact tended.step isMachine.symm alike orderly
      | collect =>
          refine tended.quiet machine.quiet_collectGarbage
            (fun ready => ready.collectContexts.collectObjects) ?_
          rintro ⟨unit, isUnit, _⟩
          cases isUnit

/-- In a run, what is under way can take its next step. -/
theorem ready_after (config : Config) (refusal : Option String) {commands : List Command}
    (compiled : LoadsCompiled commands)
    (orderly : (new config refusal).Orderly (commands ++ [.step]))
    (running : ((new config refusal).after commands).frames ≠ []) :
    ((new config refusal).after commands).Ready := by
  rcases (tended_after config refusal compiled orderly.initial).state with none | ready | stopped
  · exact (running none).elim
  · exact ready
  · exact (stopped.not_step orderly).elim

theorem goesOn_of_finish {count : Nat} (ran : machine.finish count = (after, none)) :
    ∀ taken < count, (machine.after (List.replicate taken .step)).step.2 = .ok .running := by
  induction count generalizing machine with
  | zero =>
      exact fun _ impossible => (Nat.not_lt_zero _ impossible).elim
  | succ count inductionHypothesis =>
      unfold finish at ran
      split at ran
      · rename_i next stepped
        intro taken isTaken
        cases taken with
        | zero =>
            exact congrArg Prod.snd stepped
        | succ taken =>
            have isNext : next = machine.step.1 := (congrArg Prod.fst stepped).symm
            subst isNext
            exact inductionHypothesis ran taken (Nat.lt_of_succ_lt_succ isTaken)
      · cases ran
      · cases ran

/-- A program that goes on for so many steps may take one step more. -/
theorem orderly_of_finish {unit : CodeUnit} {count : Nat}
    (ran : (start.load unit).1.finish count = (after, none)) :
    start.Orderly (.load unit :: List.replicate (count + 1) .step) := by
  intro earlier between later split _
  cases earlier with
  | nil =>
      cases split
  | cons command steps =>
      obtain ⟨rfl, isSplit⟩ := List.cons.inj split
      have isSplit : List.replicate (count + 1) .step =
          steps ++ .step :: (between ++ .step :: later) := isSplit
      have onlySteps : steps = List.replicate steps.length .step := by
        refine List.eq_replicate_of_mem fun command member => ?_
        have among : command ∈ List.replicate (count + 1) .step := by
          rw [isSplit]
          exact List.mem_append_left _ member
        exact List.eq_of_mem_replicate among
      have sameLength := congrArg List.length isSplit
      simp only [List.length_replicate, List.length_append, List.length_cons] at sameLength
      rw [onlySteps]
      exact goesOn_of_finish ran steps.length (by omega)

end Machine

end Missive
