import Missive.Proofs.Fragments.Opening

/-!
# The second part of a program

After its first part a program goes on with the operations of the second part, with an empty stack.
The second part, evaluated by itself, starts with the same memory.  From there on both take the same
steps, and only the numbers of their activations differ, because the second part has got a number
of its own.

A first part that only declares variables is no part of the program's code.  By itself it answers
`nil`, for which there has to be room on its stack.
-/

namespace Missive

/-! ## Numbers after the handover -/

namespace FrameId

/-- The number that stands for another one after the program got the number after the last one. -/
def renewed (program : FrameId) (last : Nat) (id : FrameId) : FrameId :=
  if id = program then ⟨last + 1⟩ else if id.number ≤ last then id else ⟨id.number + 1⟩

variable {program id other : FrameId} {last : Nat}

theorem renewed_program : program.renewed last program = ⟨last + 1⟩ := if_pos rfl

theorem renewed_of_issued (notProgram : id ≠ program) (issued : id.number ≤ last) :
    program.renewed last id = id := by
  rw [renewed, if_neg notProgram, if_pos issued]

theorem renewed_fresh (issued : program.number ≤ last) (count : Nat) :
    program.renewed last ⟨last + 1 + count⟩ = ⟨last + 1 + 1 + count⟩ := by
  have notProgram : (⟨last + 1 + count⟩ : FrameId) ≠ program := by
    rintro rfl
    change last + 1 + count ≤ last at issued
    omega
  have notIssued : ¬ last + 1 + count ≤ last := by omega
  rw [renewed, if_neg notProgram, if_neg notIssued]
  exact congrArg mk (Nat.add_right_comm _ _ _)

theorem renewed_inj (same : program.renewed last id = program.renewed last other) :
    id = other := by
  obtain ⟨number⟩ := id
  obtain ⟨otherNumber⟩ := other
  unfold renewed at same
  split_ifs at same <;> simp_all <;> omega

end FrameId

/-- Pairs the activations of a program with those of its second part, which is a program by itself
and has got the number after the last one. -/
def Pairing.closing (whole second : CodeUnit) (offset : Nat) (program : FrameId) (last : Nat) :
    Pairing where
  numbers left right := right = program.renewed last left
  unique := by
    rintro _ _ _ _ rfl rfl
    exact ⟨congrArg _, FrameId.renewed_inj⟩
  shared := False
  places left right := left.code = whole ∧ right.code = second ∧
    left.place = offset + right.place ∧ left.home = program ∧ right.home = ⟨last + 1⟩
  inStep := False

variable {config : Config} {whole second : CodeUnit} {skipped rest : List Op}

/-- What is left of the program says the same as its second part. -/
theorem Continued.steady (continued : Continued whole second skipped rest) (program : FrameId)
    (last : Nat) :
    (Pairing.closing whole second skipped.length program last).Steady := by
  rintro left right ⟨rfl, rfl, place, leftHome, rightHome⟩
  change left.ip = skipped.length + right.ip at place
  change left.home = program at leftHome
  change right.home = ⟨last + 1⟩ at rightHome
  have sameOp : (skipped ++ rest)[left.ip]? = rest[right.ip]? := by
    rw [place, List.getElem?_append_right (Nat.le_add_right _ _), Nat.add_sub_cancel_left]
  cases isOp : rest[right.ip]? with
  | none =>
      exact .atEnd (continued.whole.at_end (sameOp.trans isOp)) (continued.second.at_end isOp)
  | some op =>
      obtain ⟨leftInstruction, leftNext, leftDenotes⟩ :=
        continued.whole.at_place (sameOp.trans isOp)
      obtain ⟨rightInstruction, rightNext, rightDenotes⟩ := continued.second.at_place isOp
      refine .onward leftNext rightNext (continued.proper op (List.mem_of_getElem? isOp))
        leftDenotes rightDenotes (fun _ _ => Or.inl ?_)
        ⟨rfl, rfl, congrArg (· + 1) place, leftHome, rightHome⟩
      change right.home = program.renewed last left.home
      rw [rightHome, leftHome, FrameId.renewed_program]

namespace Machine

variable {left reached : Machine}

/-- The second part starts where the program stands. -/
theorem Regular.resumed {link : Link} {start : Frame} {offset : Nat} {machine : Machine}
    {context : ContextId} (regular : left.Regular config) (unlimited : config.maxSteps = none)
    (memories : link.Memories left reached) (sameLast : left.lastFrame = reached.lastFrame)
    (isStart : start = machine.launched whole context)
    (frames : left.frames = [{ start with ip := offset }])
    (isContext : left.sessionContext = start.context)
    (apart : ∀ {id closure}, left.store.get? id = some (.block closure) →
      ∀ home, link.pairing.Homes closure.body closure.home home →
        closure.home = home ∧ closure.home ≠ start.id ∨ closure.body.Returnless)
    (session : Session) :
    left.Paired (.closing whole second offset start.id left.lastFrame)
      (Machine.start { reached with session } second reached.sessionContext) := by
  subst isStart
  have issued : machine.lastFrame + 1 ≤ left.lastFrame :=
    (regular.homed.frames (frames ▸ List.mem_singleton_self _)).issued
  have carried : (link.under (.closing whole second offset ⟨machine.lastFrame + 1⟩
      left.lastFrame)).Memories left reached := by
    -- Where a block can return, its home is an activation other than the program and keeps its
    -- number.
    refine memories.under fun {id closure} found home homes => ?_
    refine (apart found home homes).imp_left ?_
    rintro ⟨rfl, notProgram⟩
    exact (FrameId.renewed_of_issued notProgram (regular.homed.blocks id closure found).issued).symm
  have noResult : left.result = none := regular.unfinished (frames ▸ List.cons_ne_nil _ _)
  refine ⟨_, rfl, { carried with }, ?_, fun count => ?_, fun impossible => impossible.elim,
    Or.inr ?_, noResult, ?_⟩
  · rw [frames]
    refine .cons ⟨rfl, fun paired => ?_, .apart rfl ⟨rfl, rfl, rfl, rfl, ?_⟩, noneKnown, ?_,
      Link.knows_nil, fun _ impossible => (Option.not_mem_none _ impossible).elim, .none⟩ .nil
    · have sameProgram := (Pairing.closing whole second offset ⟨machine.lastFrame + 1⟩
        left.lastFrame).unique FrameId.renewed_program.symm paired
      rw [sameLast] at sameProgram
      exact sameProgram
    · exact congrArg (fun last => FrameId.mk (last + 1)) sameLast.symm
    · rw [← isContext]
      exact memories.sessionContext
  · refine Eq.trans ?_ (FrameId.renewed_fresh issued count).symm
    rw [sameLast]
    rfl
  · rw [regular.limited.same]
    exact unlimited
  · rw [noResult]
    exact fun _ impossible => (Option.not_mem_none _ impossible).elim

/-- The program gets to where its second part can start beside it. -/
def Resumes (begun reached : Machine) (second : CodeUnit) : Prop :=
  ∃ pairing left, begun.Advances left ∧ pairing.Steady ∧ ∀ session,
    left.Paired pairing (Machine.start { reached with session } second reached.sessionContext)

theorem Crossed.resumes {first : CodeUnit} {machine begun : Machine} {body : List Op}
    (crossed : Crossed config (machine.launched whole machine.sessionContext) first body.length left
      reached)
    (joined : Joined whole first second body rest) (unlimited : config.maxSteps = none)
    (advances : begun.Advances left) : begun.Resumes reached second := by
  obtain ⟨link, isPairing, memories⟩ := crossed.parted.memories
  obtain ⟨sameNumber, _⟩ := crossed.parted.numbers 0
  have sameLast : left.lastFrame = reached.lastFrame :=
    Nat.add_right_cancel (congrArg FrameId.number sameNumber)
  have steady := joined.continued.steady ⟨machine.lastFrame + 1⟩ left.lastFrame
  rw [List.length_append] at steady
  refine ⟨_, left, advances, steady, fun session => ?_⟩
  refine crossed.regular.resumed unlimited memories sameLast rfl crossed.frames
    crossed.sessionContext (fun found home homes => ?_) session
  rw [isPairing] at homes
  exact homes

/-! ## First parts that only declare -/

/-- The machine will not collect until more is in use. -/
def unhurried (machine : Machine) : Machine :=
  { machine with
    nextCollection := machine.contexts.live + 1
    nextObjectCollection := machine.store.trackedCount + 1 }

theorem tidied_of_unhurried {machine : Machine}
    (contexts : machine.contexts.live < machine.nextCollection)
    (objects : machine.store.trackedCount < machine.nextObjectCollection) :
    machine.tidied = machine := by
  unfold Machine.tidied
  simp only [Nat.not_le.mpr contexts, if_false, Nat.not_le.mpr objects]

/-- Where there is room for an operand, a program that only declares variables answers `nil` and
changes nothing. -/
theorem ends_blank {machine launcher : Machine} {context : ContextId}
    (unlimited : machine.config.maxSteps = none) (room : 0 < machine.config.maxStackDepth)
    (contexts : machine.contexts.live < machine.nextCollection)
    (objects : machine.store.trackedCount < machine.nextObjectCollection)
    (frames : machine.frames = [launcher.launched .blank context]) :
    machine.Ends { machine with steps := machine.steps + 2, frames := [], result := some .nil }
      (.ok .nil) := by
  let next : Machine :=
    { machine with
      steps := machine.steps + 1
      frames := [{ launcher.launched .blank context with ip := 1, stack := [.nil] }] }
  have pushed : machine.step = (next, .ok .running) := by
    have isNext : CodeUnit.blank.code[0]? = some (.bare .pushNil) := rfl
    refine step_of_execute unlimited frames isNext ?_
    have counted : ({ machine with steps := machine.steps + 1 } : Machine).tidied = _ :=
      tidied_of_unhurried contexts objects
    let prepared : Machine :=
      { next with frames := [{ launcher.launched .blank context with ip := 1 }] }
    have isPrepared : Exec.prepared machine (launcher.launched .blank context) [] = prepared := by
      rw [Exec.prepared, counted]
      rfl
    have answered : Exec.push .nil prepared = _ := Exec.push_of_cons rfl room
    rw [isPrepared]
    exact Exec.bind_of_ok answered
  have isNext : CodeUnit.blank.code[1]? = some (.bare .return) := rfl
  have counted : ({ next with steps := next.steps + 1 } : Machine).tidied = _ :=
    tidied_of_unhurried contexts objects
  have returned := @step_return next _ .nil unlimited rfl isNext rfl
  rw [counted] at returned
  exact .later pushed (.finished returned)

theorem config_tidied (machine : Machine) : machine.tidied.config = machine.config := by
  unfold Machine.tidied
  dsimp only
  split <;> split <;> rfl

/-- It answers only where there is room for an operand. -/
theorem room_of_blank {machine launcher final : Machine} {context : ContextId} {value : Value}
    (unlimited : machine.config.maxSteps = none)
    (frames : machine.frames = [launcher.launched .blank context])
    (ends : machine.Ends final (.ok value)) : 0 < machine.config.maxStackDepth := by
  obtain ⟨next, state, stepped⟩ : ∃ next state, machine.step = (next, .ok state) := by
    cases ends with
    | finished stepped | later stepped _ =>
        exact ⟨_, _, stepped⟩
  have isNext : CodeUnit.blank.code[0]? = some (.bare .pushNil) := rfl
  rw [step_of_cons frames,
    Exec.step_of_within frames isNext (within_of_unlimited unlimited)] at stepped
  by_contra full
  generalize isPrepared : Exec.prepared machine (launcher.launched .blank context) [] = prepared
    at stepped
  have noRoom : prepared.config.maxStackDepth ≤ 0 := by
    rw [← isPrepared, Exec.prepared]
    dsimp only
    rw [config_tidied]
    exact Nat.le_of_not_lt full
  have preparedFrames : prepared.frames = [{ launcher.launched .blank context with ip := 1 }] := by
    rw [← isPrepared]
    rfl
  have failed : Exec.execute (.bare .pushNil) prepared = _ :=
    Exec.bind_of_error (Exec.push_of_full preparedFrames noRoom)
  rw [failed] at stepped
  cases stepped

/-- A program that only declares variables does not change the memory. -/
theorem Regular.ends_start_blank {machine : Machine} (regular : machine.Regular config)
    (unlimited : config.maxSteps = none) (room : 0 < config.maxStackDepth) (session : Session) :
    ∃ reached,
      (Machine.start { machine with session } .blank machine.sessionContext).Ends reached
        (.ok .nil) ∧
      reached.lastFrame = machine.lastFrame + 1 ∧
      ∃ link : Link, link.pairing = .same ∧ link.Memories machine reached := by
  have begun := regular_start regular session (show CodeUnit.blank.verify = .ok () from rfl)
  obtain ⟨link, isSame, machines⟩ := begun.alike
  -- A machine that does not collect on the way comes to the same.
  let calm := (Machine.start { machine with session } .blank machine.sessionContext).unhurried
  have alike : calm.Alike _ := ⟨link, isSame, { machines with }⟩
  have same : calm.config = config := begun.limited.same
  have ends := @ends_blank calm machine machine.sessionContext (same ▸ unlimited) (same ▸ room)
    (Nat.lt_succ_self _) (Nat.lt_succ_self _) rfl
  obtain ⟨reached, result, reachedEnds, paired, sameResult⟩ :=
    Paired.ends Pairing.steady_same alike ends
  obtain ⟨later, isSame, reachedMachines⟩ := paired
  refine ⟨reached, ?_, ?_, later, isSame, { reachedMachines.toMemories with }⟩
  · cases result with
    | error fault =>
        cases sameResult
    | ok value =>
        cases sameResult
        exact reachedEnds
  · have sameNumber := reachedMachines.numbers 0
    rw [isSame] at sameNumber
    have numbers := congrArg FrameId.number sameNumber
    exact Nat.add_right_cancel numbers.symm

theorem Regular.resumes_blank {machine : Machine} {value : Value} {session between : Session}
    (regular : machine.Regular config) (unlimited : config.maxSteps = none)
    (continued : Continued whole second [] rest) (verified : whole.verify = .ok ())
    (ends : (Machine.start { machine with session := between } .blank machine.sessionContext).Ends
      reached (.ok value)) :
    (Machine.start { machine with session } whole machine.sessionContext).Resumes reached
      second := by
  have begun := regular_start regular session verified
  have room : 0 < config.maxStackDepth := by
    have same : machine.config = config := regular.limited.same
    have room := room_of_blank (same ▸ unlimited) rfl ends
    exact same ▸ room
  obtain ⟨_, others, lastFrame, link, isSame, memories⟩ :=
    regular.ends_start_blank unlimited room between
  obtain ⟨rfl, _⟩ := others.unique ends
  refine ⟨_, _, .refl, continued.steady ⟨machine.lastFrame + 1⟩ (machine.lastFrame + 1),
    fun session => ?_⟩
  refine begun.resumed unlimited { memories with } lastFrame.symm rfl rfl rfl
    (fun {id closure} found home homes => ?_) session
  rw [isSame] at homes
  exact homes.imp_left fun same => ⟨same, regular.home_ne found⟩

/-! ## The rest of the program -/

/-- Two runs come to the same, but for the report of the activations under way. -/
structure Concurs (left : Machine) (outcome : Except Fault Value) (right : Machine)
    (otherOutcome : Except Fault Value) : Prop where
  paired : ∃ pairing, left.Paired pairing right
  sameCause : causeOf outcome = causeOf otherOutcome

variable {begun : Machine} {session : Session}

theorem Resumes.of_second {last : Machine} {outcome : Except Fault Value}
    (resumes : begun.Resumes reached second)
    (ends : (Machine.start { reached with session } second reached.sessionContext).Ends last
      outcome) :
    ∃ other otherOutcome, begun.Ends other otherOutcome ∧
      last.Concurs outcome other otherOutcome := by
  obtain ⟨pairing, left, advances, steady, paired⟩ := resumes
  obtain ⟨other, otherOutcome, otherEnds, reachedPaired, sameCause⟩ :=
    (paired session).flip.ends steady.flip ends
  exact ⟨other, otherOutcome, advances.ends.mpr otherEnds, ⟨_, reachedPaired⟩, sameCause⟩

theorem Resumes.of_whole {other : Machine} {otherOutcome : Except Fault Value}
    (resumes : begun.Resumes reached second) (ends : begun.Ends other otherOutcome) :
    ∃ last outcome,
      (Machine.start { reached with session } second reached.sessionContext).Ends last outcome ∧
      last.Concurs outcome other otherOutcome := by
  obtain ⟨pairing, left, advances, steady, paired⟩ := resumes
  obtain ⟨last, outcome, lastEnds, reachedPaired, sameCause⟩ :=
    (paired session).ends steady (advances.ends.mp ends)
  exact ⟨last, outcome, lastEnds, ⟨_, reachedPaired.flip⟩, sameCause.symm⟩

end Machine

end Missive
