import Missive.Proofs.Classes.Fragments

/-!
# Two runs side by side

Two machines whose activations are paired take their steps together, as long as paired places have
the same operation before them.  Then one run ends exactly where the other one does, with the same
value or for the same cause.
-/

namespace Missive

namespace Machine

/-! ## How a run ends -/

/-- The program that is under way leads to the machine and the result. -/
inductive Ends : Machine → Machine → Except Fault Value → Prop
  | finished {machine final : Machine} {value : Value} :
      machine.step = (final, .ok (.finished value)) → Ends machine final (.ok value)
  | failed {machine final : Machine} {fault : Fault} :
      machine.step = (final, .error fault) → Ends machine final (.error fault)
  | later {machine next final : Machine} {result : Except Fault Value} :
      machine.step = (next, .ok .running) → Ends next final result → Ends machine final result

variable {machine next start final : Machine} {result : Except Fault Value}

theorem finish_eq_some_iff :
    (∃ fuel, machine.finish fuel = (final, some result)) ↔ machine.Ends final result := by
  constructor
  · rintro ⟨fuel, finished⟩
    induction fuel generalizing machine with
    | zero =>
        cases finished
    | succ fuel inductionHypothesis =>
        unfold finish at finished
        rcases stepped : machine.step with ⟨next, fault | state⟩
        · rw [stepped] at finished
          cases finished
          exact .failed stepped
        · rw [stepped] at finished
          cases state with
          | running =>
              exact .later stepped (inductionHypothesis finished)
          | finished value =>
              cases finished
              exact .finished stepped
  · intro ends
    induction ends with
    | finished stepped | failed stepped =>
        refine ⟨1, ?_⟩
        rw [finish, stepped]
    | later stepped _ inductionHypothesis =>
        obtain ⟨fuel, finished⟩ := inductionHypothesis
        refine ⟨fuel + 1, ?_⟩
        rw [finish, stepped]
        exact finished

theorem ends_of_step (stepped : machine.step = (next, .ok .running)) :
    machine.Ends final result ↔ next.Ends final result := by
  constructor
  · intro ends
    cases ends with
    | finished other | failed other =>
        rw [stepped] at other
        cases other
    | later other ends =>
        rw [stepped] at other
        cases other
        exact ends
  · exact .later stepped

/-- A run ends in one way only. -/
theorem Ends.unique {other : Machine} {otherResult : Except Fault Value}
    (ends : machine.Ends final result) (others : machine.Ends other otherResult) :
    final = other ∧ result = otherResult := by
  induction ends with
  | finished stepped | failed stepped =>
      cases others with
      | finished otherStep | failed otherStep | later otherStep _ =>
          rw [stepped] at otherStep
          cases otherStep <;> exact ⟨rfl, rfl⟩
  | later stepped _ inductionHypothesis =>
      exact inductionHypothesis ((ends_of_step stepped).mp others)

/-- The machine gets to the other one by steps, and the program is not at its end. -/
abbrev Advances : Machine → Machine → Prop :=
  Relation.ReflTransGen fun before after => before.step = (after, .ok .running)

theorem Advances.ends (advances : start.Advances machine) :
    start.Ends final result ↔ machine.Ends final result := by
  induction advances with
  | refl =>
      exact Iff.rfl
  | tail _ stepped inductionHypothesis =>
      exact inductionHypothesis.trans (ends_of_step stepped)

end Machine

/-! ## Paired runs -/

/-- Two activations at paired places can take a step together. -/
def Pairing.Steady (pairing : Pairing) : Prop :=
  ∀ left right : Frame, pairing.places left.standing right.standing → pairing.Ready left right

/-- Programs that are the same stand at no two places. -/
theorem Pairing.steady_same : Pairing.same.Steady := fun _ _ impossible => impossible.elim

theorem Pairing.Ready.flip {pairing : Pairing} {left right : Frame}
    (ready : pairing.Ready left right) : pairing.flip.Ready right left := by
  cases ready with
  | onward leftNext rightNext proper leftDenotes rightDenotes homes further =>
      exact .onward rightNext leftNext proper rightDenotes leftDenotes
        (fun body member => (homes body member).flip) further
  | atEnd leftNone rightNone =>
      exact .atEnd rightNone leftNone

theorem Pairing.Steady.flip {pairing : Pairing} (steady : pairing.Steady) : pairing.flip.Steady :=
  fun left right places => (steady right left places).flip

namespace Machine

variable {pairing : Pairing} {left right final : Machine} {result : Except Fault Value}

/-- What came of a run, without the report of the activations under way. -/
def causeOf (result : Except Fault Value) : Except Cause Value := result.mapError Fault.cause

/-- The ways in which a step of both machines can come out. -/
inductive StepsWith (pairing : Pairing) (left right : Machine) : Prop
  | running {next other : Machine} : left.step = (next, .ok .running) →
      right.step = (other, .ok .running) → next.Paired pairing other → StepsWith pairing left right
  | finished {next other : Machine} {value : Value} :
      left.step = (next, .ok (.finished value)) → right.step = (other, .ok (.finished value)) →
      next.Paired pairing other → StepsWith pairing left right
  | failed {next other : Machine} {fault otherFault : Fault} : left.step = (next, .error fault) →
      right.step = (other, .error otherFault) → fault.cause = otherFault.cause →
      next.Paired pairing other → StepsWith pairing left right

theorem Paired.stepsWith (paired : left.Paired pairing right)
    (ready : pairing.ReadyAmong left.frames right.frames) : StepsWith pairing left right := by
  obtain ⟨same, stepped, _⟩ := paired.step ready
  unfold stepOutcome at same
  rcases leftStep : left.step with ⟨next, fault | state⟩
  · rcases rightStep : right.step with ⟨other, otherFault | otherState⟩
    · rw [leftStep, rightStep] at same stepped
      exact .failed leftStep rightStep (Except.error.inj same) stepped
    · rw [leftStep, rightStep] at same
      cases same
  · rcases rightStep : right.step with ⟨other, otherFault | otherState⟩
    · rw [leftStep, rightStep] at same
      cases same
    · rw [leftStep, rightStep] at same stepped
      cases same
      cases state with
      | running =>
          exact .running leftStep rightStep stepped
      | finished value =>
          exact .finished leftStep rightStep stepped

/-- Where one of two paired runs ends, the other one ends in the same way. -/
theorem Paired.ends (steady : pairing.Steady) (paired : left.Paired pairing right)
    (ends : left.Ends final result) :
    ∃ otherFinal otherResult, right.Ends otherFinal otherResult ∧
      final.Paired pairing otherFinal ∧ causeOf result = causeOf otherResult := by
  induction ends generalizing right with
  | finished stepped =>
      cases paired.stepsWith fun _ _ _ _ => steady _ _ with
      | running other _ _ | failed other _ _ _ =>
          rw [stepped] at other
          cases other
      | finished leftStep rightStep next =>
          rw [stepped] at leftStep
          cases leftStep
          exact ⟨_, _, .finished rightStep, next, rfl⟩
  | failed stepped =>
      cases paired.stepsWith fun _ _ _ _ => steady _ _ with
      | running other _ _ | finished other _ _ =>
          rw [stepped] at other
          cases other
      | failed leftStep rightStep sameCause next =>
          rw [stepped] at leftStep
          cases leftStep
          exact ⟨_, _, .failed rightStep, next, congrArg Except.error sameCause⟩
  | later stepped _ inductionHypothesis =>
      cases paired.stepsWith fun _ _ _ _ => steady _ _ with
      | finished other _ _ | failed other _ _ _ =>
          rw [stepped] at other
          cases other
      | running leftStep rightStep next =>
          rw [stepped] at leftStep
          cases leftStep
          obtain ⟨otherFinal, otherResult, otherEnds, reached, same⟩ := inductionHypothesis next
          exact ⟨otherFinal, otherResult, .later rightStep otherEnds, reached, same⟩

end Machine

end Missive
