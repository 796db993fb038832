import Missive.Proofs.Fragments.Lockstep
import Missive.Proofs.Steps.Limits

/-!
# Sessions

A machine is used in any way: programs are loaded and run, step by step or to their end, fragments
are evaluated, what was written is taken away, and garbage is collected.  What is known about all
machines then holds at every time, also between the fragments of a session.
-/

namespace Missive

/-! ## Finished programs -/

namespace Exec

/-- Where the computation finishes the program with a value, the machine keeps the value. -/
def Concludes (x : Exec StepState) : Prop :=
  ∀ machine value reached, x machine = .ok (.finished value) reached →
    reached.result = some value

theorem concludes_bind {α : Type} {x : Exec α} {f : α → Exec StepState}
    (next : ∀ answer, Concludes (f answer)) : Concludes (x >>= f) := by
  intro machine value reached finished
  obtain ⟨answer, between, _, later⟩ := bind_eq_ok.mp finished
  exact next answer between value reached later

theorem concludes_throw (cause : Cause) : Concludes (throw cause) := by
  rintro _ _ _ ⟨⟩

theorem concludes_running : Concludes (pure .running) := by
  rintro _ _ _ ⟨⟩

theorem concludes_complete (value : Value) : Concludes (complete value) := by
  refine concludes_bind fun machine => ?_
  split
  · exact concludes_throw _
  · refine concludes_bind fun _ => ?_
    split
    · rintro _ _ _ ⟨⟩
      rfl
    · split
      · exact concludes_bind fun _ => concludes_running
      · exact concludes_bind fun _ => concludes_bind fun _ => concludes_running

theorem concludes_returnFromHome (value : Value) : Concludes (returnFromHome value) := by
  refine concludes_bind fun current => ?_
  split
  · refine concludes_bind fun machine => ?_
    split
    · exact concludes_bind fun _ => concludes_complete value
    · exact concludes_bind fun _ => concludes_complete value
  · exact concludes_complete value

theorem concludes_execute (instruction : Instruction) : Concludes (execute instruction) := by
  obtain ⟨opcode, operand⟩ := instruction
  cases opcode with
  | «return» =>
      exact concludes_bind concludes_complete
  | nonLocalReturn =>
      exact concludes_bind concludes_returnFromHome
  | _ =>
      exact concludes_bind fun _ => concludes_running

theorem concludes_step : Concludes step := by
  refine concludes_bind fun _ => concludes_bind fun _ => concludes_bind fun current => ?_
  split
  · exact concludes_bind fun _ => concludes_execute _
  · exact concludes_complete _

end Exec

namespace Machine

variable {config : Config} {refusal : Option String} {machine : Machine}

/-! ## Machines in use -/

/-- The machine came about by use of a new one. -/
inductive Used (config : Config) (refusal : Option String) : Machine → Prop
  | new : Used config refusal (new config refusal)
  | obey {machine : Machine} (command : Command) : Used config refusal machine →
      Used config refusal (machine.obey command).1
  | eval {machine : Machine} (fuel : Nat) (fragment : Program) : Used config refusal machine →
      Used config refusal (machine.eval fuel fragment).1
  | takeOutput {machine : Machine} : Used config refusal machine →
      Used config refusal machine.takeOutput.2

/-- What holds of every machine in use. -/
structure Regular (config : Config) (machine : Machine) : Prop where
  alike : machine.Alike machine
  bounded : machine.Bounded
  homed : machine.Homed
  limited : Limited config machine
  unfinished : machine.Unfinished

theorem regular_new (config : Config) (refusal : Option String) :
    (new config refusal).Regular config :=
  ⟨alike_new config refusal, bounded_new config refusal, homed_new config refusal,
    ⟨rfl, Nat.zero_le _⟩, fun running => (running rfl).elim⟩

theorem Regular.after (regular : machine.Regular config) (commands : List Command) :
    (machine.after commands).Regular config := by
  have moves := moves_after regular.alike regular.bounded commands
  exact ⟨regular.alike.after commands, moves.keep (fun move => move.bounded) regular.bounded,
    moves.keep (fun move => move.homed) regular.homed,
    moves.keep (fun move => move.limited) regular.limited,
    moves.keep (fun move => move.unfinished) regular.unfinished⟩

theorem Homed.congr {other : Machine} (homed : machine.Homed)
    (frames : other.frames = machine.frames) (lastFrame : other.lastFrame = machine.lastFrame)
    (store : other.store = machine.store) : other.Homed := by
  have activations : other.activations = machine.activations := congrArg (List.map _) frames
  have isHome : ∀ home, machine.IsHome home → other.IsHome home := by
    intro home isHome
    refine ⟨lastFrame ▸ isHome.issued, ?_⟩
    rw [activations]
    exact isHome.notBlock
  refine ⟨⟨?_, ?_, ?_, ?_⟩, ?_, ?_⟩
  · rw [activations]
    exact homed.descending
  · rw [activations, lastFrame]
    exact homed.issued
  · rw [activations]
    exact homed.bottom
  · rw [activations]
    exact homed.own
  · rw [activations]
    exact fun activation member => isHome _ (homed.homes activation member)
  · rw [store]
    exact fun id closure found => isHome _ (homed.blocks id closure found)

theorem Regular.withSession (regular : machine.Regular config) (session : Session) :
    Regular config { machine with session } :=
  ⟨regular.alike.withSession session, ⟨regular.bounded.limited, regular.bounded.waiting⟩,
    regular.homed.congr rfl rfl rfl, ⟨regular.limited.same, regular.limited.frames⟩,
    regular.unfinished⟩

theorem Regular.takeOutput (regular : machine.Regular config) :
    machine.takeOutput.2.Regular config := by
  obtain ⟨link, isSame, machines⟩ := regular.alike
  exact ⟨⟨link, isSame, { machines with output := rfl }⟩,
    ⟨regular.bounded.limited, regular.bounded.waiting⟩, regular.homed.congr rfl rfl rfl,
    ⟨regular.limited.same, regular.limited.frames⟩, regular.unfinished⟩

theorem Regular.step (regular : machine.Regular config) : machine.step.1.Regular config :=
  regular.after [.step]

theorem Regular.sessionContext_step (regular : machine.Regular config) :
    machine.step.1.sessionContext = machine.sessionContext :=
  (moves_step regular.alike regular.bounded).1.keep
    (fun move same => move.sessionContext.trans same) rfl

theorem Regular.finish (regular : machine.Regular config) (fuel : Nat) :
    (machine.finish fuel).1.Regular config := by
  induction fuel generalizing machine with
  | zero =>
      exact regular
  | succ fuel inductionHypothesis =>
      have stepped := regular.step
      unfold Machine.finish
      generalize machine.step = result at stepped ⊢
      obtain ⟨next, outcome⟩ := result
      cases outcome with
      | error fault =>
          exact stepped
      | ok state =>
          cases state with
          | running =>
              exact inductionHypothesis stepped
          | finished value =>
              exact stepped

theorem Regular.eval (regular : machine.Regular config) (fuel : Nat) (fragment : Program) :
    (machine.eval fuel fragment).1.Regular config := by
  cases compiled : machine.session.compile fragment with
  | mk session result =>
      cases result with
      | error error =>
          rw [eval_of_error compiled]
          exact regular
      | ok unit =>
          have loaded := (regular.withSession session).after [.loadInSession unit]
          change (loadInSession { machine with session } unit).1.Regular config at loaded
          unfold Machine.eval runInSession
          rw [compiled]
          dsimp only
          generalize loadInSession { machine with session } unit = result at loaded ⊢
          obtain ⟨next, outcome⟩ := result
          cases outcome with
          | error fault =>
              exact loaded
          | ok _ =>
              exact loaded.finish fuel

theorem Used.regular (used : Used config refusal machine) : machine.Regular config := by
  induction used with
  | new =>
      exact regular_new config refusal
  | obey command _ inductionHypothesis =>
      exact inductionHypothesis.after [command]
  | eval fuel fragment _ inductionHypothesis =>
      exact inductionHypothesis.eval fuel fragment
  | takeOutput _ inductionHypothesis =>
      exact inductionHypothesis.takeOutput

/-! ## Evaluations that end -/

theorem result_of_finished {next : Machine} {value : Value}
    (finished : machine.step = (next, .ok (.finished value))) : next.result = some value := by
  unfold Machine.step at finished
  split at finished
  · split at finished
    · cases finished
      assumption
    · cases finished
  · split at finished
    · rename_i isStep
      cases finished
      exact Exec.concludes_step machine value next isStep
    · cases finished

/-- The evaluation of the fragment ends with the result. -/
def Evaluates (machine : Machine) (fragment : Program) (final : Machine)
    (result : Except EvalError Value) : Prop :=
  ∃ fuel, machine.eval fuel fragment = (final, some result)

theorem evaluates_iff {fragment : Program} {session : Session} {unit : CodeUnit} {final : Machine}
    {result : Except EvalError Value}
    (compiled : machine.session.compile fragment = (session, .ok unit))
    (verified : unit.verify = .ok ()) :
    machine.Evaluates fragment final result ↔
      ∃ outcome, (start { machine with session } unit machine.sessionContext).Ends final outcome ∧
        result = outcome.mapError .run := by
  have evaluated : ∀ fuel, machine.eval fuel fragment =
      (((start { machine with session } unit machine.sessionContext).finish fuel).1,
        ((start { machine with session } unit machine.sessionContext).finish fuel).2.map
          fun result => result.mapError .run) := by
    intro fuel
    unfold Machine.eval runInSession loadInSession
    rw [compiled]
    dsimp only
    rw [verified]
    rfl
  unfold Evaluates
  simp only [evaluated, ← finish_eq_some_iff]
  constructor
  · rintro ⟨fuel, ended⟩
    rcases finished : finish fuel _ with ⟨reached, outcome⟩
    rw [finished] at ended
    obtain ⟨rfl, mapped⟩ := Prod.mk.inj ended
    obtain ⟨outcome, rfl, rfl⟩ := Option.map_eq_some_iff.mp mapped
    exact ⟨outcome, ⟨fuel, finished⟩, rfl⟩
  · rintro ⟨outcome, ⟨fuel, finished⟩, rfl⟩
    refine ⟨fuel, ?_⟩
    rw [finished]
    rfl

theorem Regular.ends {final : Machine} {outcome : Except Fault Value}
    (regular : machine.Regular config) (ends : machine.Ends final outcome) :
    final.Regular config ∧ final.session = machine.session := by
  have stepped : ∀ {machine next : Machine} {state : Except Fault StepState},
      machine.Regular config → machine.step = (next, state) →
      next.Regular config ∧ next.session = machine.session := by
    intro machine next state regular stepped
    have moves := (moves_step regular.alike regular.bounded).1
    have later := regular.step
    rw [stepped] at moves later
    exact ⟨later, moves.session_eq⟩
  induction ends with
  | finished last | failed last =>
      exact stepped regular last
  | later step _ inductionHypothesis =>
      obtain ⟨regularNext, sameSession⟩ := stepped regular step
      obtain ⟨regularLast, same⟩ := inductionHypothesis regularNext
      exact ⟨regularLast, same.trans sameSession⟩

end Machine

end Missive
