import Missive.Proofs.Fragments.Heights
import Missive.Proofs.Fragments.Joining
import Missive.Proofs.Fragments.Sessions

/-!
# The first part of a program

A program and its first part, which is a program by itself, run side by side.  They have the same
operations before them until the first part returns.  There the program drops the value and goes on,
and neither can end before unless both fail.
-/

namespace Missive

/-! ## Links with another pairing -/

namespace Link

variable {link : Link} {pairing : Pairing}

/-- The link with another pairing. -/
def under (link : Link) (pairing : Pairing) : Link := { link with pairing }

theorem Outers.under {left right : Option ContextId} (outers : link.Outers left right) :
    (link.under pairing).Outers left right := by
  cases outers with
  | none =>
      exact .none
  | some linked =>
      exact .some linked

/-- Where the homes of the blocks go together in the other pairing too, the memories correspond as
before. -/
theorem Memories.under {left right : Machine} (memories : link.Memories left right)
    (carries : ∀ {id closure}, left.store.get? id = some (.block closure) →
      ∀ home, link.pairing.Homes closure.body closure.home home →
        pairing.Homes closure.body closure.home home) :
    (link.under pairing).Memories left right := by
  refine { memories with
    stores := ⟨memories.stores.size, fun linked => ?_⟩
    arenas := { memories.arenas with linked := fun linked => ?_ } }
  · obtain ⟨leftObject, rightObject, leftFound, rightFound, leftFixed, rightFixed, objects⟩ :=
      memories.stores.linked linked
    refine ⟨leftObject, rightObject, leftFound, rightFound, leftFixed, rightFixed, ?_⟩
    cases objects with
    | block closures =>
        exact .block { closures with home := carries leftFound _ closures.home }
    | other contextFree references =>
        exact .other contextFree references
  · obtain ⟨leftContext, rightContext, leftFound, rightFound, contexts⟩ :=
      memories.arenas.linked linked
    exact ⟨leftContext, rightContext, leftFound, rightFound,
      { contexts with outers := contexts.outers.under }⟩

end Link

namespace Machine

/-- The activation of a program that is started in a context. -/
def launched (machine : Machine) (code : CodeUnit) (context : ContextId) : Frame :=
  { id := ⟨machine.lastFrame + 1⟩, home := ⟨machine.lastFrame + 1⟩, kind := .topLevel, code, ip := 0
    stack := [], context, receiver := .nil, owner := none, classSide := false
    label := topLevelLabel, loop := none }

end Machine

/-- Pairs the activations of a program with those of its first part.  The number of the program
stands for nothing, so only blocks without returns can have it as their home. -/
def Pairing.opening (whole first : CodeUnit) (length : Nat) (program : FrameId) : Pairing where
  numbers left right := left = right ∧ left ≠ program
  unique := by
    rintro _ _ _ _ ⟨rfl, _⟩ ⟨rfl, _⟩
    exact Iff.rfl
  shared := False
  places left right := right.kind = .topLevel ∧ left.code = whole ∧ right.code = first ∧
    right.place = left.place ∧ left.place ≤ length
  inStep := True

variable {config : Config} {whole first second : CodeUnit} {body rest : List Op}
  {program : FrameId}

/-- Both programs have the same operation at a place of the first part. -/
theorem Joined.inside (joined : Joined whole first second body rest) {place : Nat}
    (before : place < body.length) :
    ∃ op leftInstruction rightInstruction, op ∈ body ∧
      whole.code[place]? = some leftInstruction ∧ op.Denotes whole.constants leftInstruction ∧
      first.code[place]? = some rightInstruction ∧ op.Denotes first.constants rightInstruction := by
  obtain ⟨op, isOp⟩ : ∃ op, body[place]? = some op := ⟨_, List.getElem?_eq_getElem before⟩
  obtain ⟨leftInstruction, leftNext, leftDenotes⟩ :=
    joined.whole.at_place ((List.getElem?_append_left before).trans isOp)
  obtain ⟨rightInstruction, rightNext, rightDenotes⟩ :=
    joined.first.at_place ((List.getElem?_append_left before).trans isOp)
  exact ⟨op, leftInstruction, rightInstruction, List.mem_of_getElem? isOp, leftNext, leftDenotes,
    rightNext, rightDenotes⟩

theorem Joined.ready (joined : Joined whole first second body rest) {left right : Frame}
    (places : (Pairing.opening whole first body.length program).places left.standing right.standing)
    (notEnd : right.ip ≠ body.length) :
    (Pairing.opening whole first body.length program).Ready left right ∧
      ∃ instruction, right.code.code[right.ip]? = some instruction ∧
        instruction.returns = false := by
  obtain ⟨isProgram, rfl, rfl, samePlace, inside⟩ := places
  change right.ip = left.ip at samePlace
  change left.ip ≤ body.length at inside
  have before : right.ip < body.length := by omega
  obtain ⟨op, leftInstruction, rightInstruction, member, leftNext, leftDenotes, rightNext,
    rightDenotes⟩ := joined.inside before
  obtain ⟨onward, returnless⟩ := joined.body op member
  constructor
  · rw [samePlace] at leftNext
    exact .onward leftNext rightNext onward.proper leftDenotes rightDenotes
      (fun block isBlock => Or.inr (returnless.blocks block isBlock))
      ⟨isProgram, rfl, rfl, congrArg (· + 1) samePlace, samePlace.symm.trans_lt before⟩
  · refine ⟨rightInstruction, rightNext, ?_⟩
    have notReturn := onward.notReturn
    have notNonLocal := returnless.notReturn
    rw [rightDenotes.opcode] at notReturn notNonLocal
    unfold Instruction.returns
    split
    · rename_i isReturn
      exact (notReturn isReturn).elim
    · rename_i isReturn
      exact (notNonLocal isReturn).elim
    · rfl

namespace Machine

variable {pairing : Pairing} {left right : Machine}

/-! ## One step for each machine -/

/-- The step is counted and what is not in use is collected, on both sides. -/
theorem Paired.counted_tidied (paired : left.Paired pairing right) :
    ({ left with steps := left.steps + 1 } : Machine).tidied.Paired pairing
      ({ right with steps := right.steps + 1 } : Machine).tidied := by
  obtain ⟨link, isPairing, machines⟩ := paired
  have counted : Paired pairing { left with steps := left.steps + 1 }
      { right with steps := right.steps + 1 } :=
    ⟨link, isPairing, { machines with
      steps := fun inStep => congrArg (· + 1) (machines.steps inStep) }⟩
  exact counted.tidied.flip.tidied.flip

/-- What two machines have in common when one goes on and the program of the other has ended. -/
structure Parted (pairing : Pairing) (left right : Machine) : Prop where
  memories : ∃ link : Link, link.pairing = pairing ∧ link.Memories left right
  numbers : ∀ count, pairing.numbers ⟨left.lastFrame + 1 + count⟩ ⟨right.lastFrame + 1 + count⟩

variable {leftFrame rightFrame : Frame} {value : Value}

theorem within_of_unlimited {machine : Machine} (unlimited : machine.config.maxSteps = none)
    (limit : Nat) (isLimit : machine.config.maxSteps = some limit) : machine.steps < limit := by
  rw [unlimited] at isLimit
  cases isLimit

theorem step_of_execute {machine next : Machine} {current : Frame} {rest : List Frame}
    {instruction : Instruction} {state : StepState} (unlimited : machine.config.maxSteps = none)
    (frames : machine.frames = current :: rest)
    (isNext : current.code.code[current.ip]? = some instruction)
    (executed : Exec.execute instruction (Exec.prepared machine current rest) = .ok state next) :
    machine.step = (next, .ok state) := by
  rw [step_of_cons frames, Exec.step_of_within frames isNext (within_of_unlimited unlimited),
    executed]

theorem step_pop (unlimited : left.config.maxSteps = none) (frames : left.frames = [leftFrame])
    (isNext : leftFrame.code.code[leftFrame.ip]? = some (.bare .pop))
    (stack : leftFrame.stack = [value]) :
    left.step = ({ ({ left with steps := left.steps + 1 } : Machine).tidied with
      frames := [{ leftFrame with ip := leftFrame.ip + 1, stack := [] }] }, .ok .running) := by
  refine step_of_execute unlimited frames isNext ?_
  have advanced : ({ leftFrame with ip := leftFrame.ip + 1 } : Frame).stack = [value] := stack
  have popped : Exec.pop (Exec.prepared left leftFrame []) = _ := Exec.pop_of_cons rfl advanced
  exact Exec.bind_of_ok (Exec.bind_of_ok popped)

theorem step_return (unlimited : right.config.maxSteps = none)
    (frames : right.frames = [rightFrame])
    (isNext : rightFrame.code.code[rightFrame.ip]? = some (.bare .return))
    (stack : rightFrame.stack = [value]) :
    right.step = ({ ({ right with steps := right.steps + 1 } : Machine).tidied with
      frames := [], result := some value }, .ok (.finished value)) := by
  refine step_of_execute unlimited frames isNext ?_
  have advanced : ({ rightFrame with ip := rightFrame.ip + 1 } : Frame).stack = [value] := stack
  have popped : Exec.pop (Exec.prepared right rightFrame []) = _ := Exec.pop_of_cons rfl advanced
  exact (Exec.bind_of_ok popped).trans (Exec.complete_last rfl)

/-- One program drops the value that the other one returns. -/
theorem Paired.part (paired : left.Paired pairing right) (unlimited : left.config.maxSteps = none)
    (leftFrames : left.frames = [leftFrame]) (rightFrames : right.frames = [rightFrame])
    (leftNext : leftFrame.code.code[leftFrame.ip]? = some (.bare .pop))
    (rightNext : rightFrame.code.code[rightFrame.ip]? = some (.bare .return))
    (leftStack : leftFrame.stack = [value]) (rightStack : rightFrame.stack = [value]) :
    ∃ next reached, left.step = (next, .ok .running) ∧
      right.step = (reached, .ok (.finished value)) ∧
      next.frames = [{ leftFrame with ip := leftFrame.ip + 1, stack := [] }] ∧
      Parted pairing next reached := by
  obtain ⟨link, isPairing, machines⟩ := paired.counted_tidied
  have rightUnlimited : right.config.maxSteps = none := by
    obtain ⟨link, _, machines⟩ := paired
    exact machines.maxSteps.symm.trans unlimited
  refine ⟨_, _, step_pop unlimited leftFrames leftNext leftStack,
    step_return rightUnlimited rightFrames rightNext rightStack, rfl,
    ⟨link, isPairing, { machines.toMemories with }⟩, ?_⟩
  rw [← isPairing]
  exact machines.numbers

end Machine

/-! ## Both programs under way -/

theorem OnCourse.last {start last : Frame} {above : List Frame}
    (onCourse : OnCourse start (above ++ [last])) : ∃ waiting, start.Course waiting last := by
  generalize isWhole : above ++ [last] = frames at onCourse
  cases onCourse with
  | alone course =>
      cases above with
      | nil =>
          cases isWhole
          exact ⟨0, course⟩
      | cons top above =>
          exact (List.append_ne_nil_of_right_ne_nil above (List.cons_ne_nil last [])
            (List.cons.inj isWhole).2).elim
  | below course =>
      rw [← List.cons_append] at isWhole
      cases (List.append_inj' isWhole rfl).2
      exact ⟨1, course⟩

theorem OnCourse.of_alone {start program : Frame} (onCourse : OnCourse start [program]) :
    start.Course 0 program := by
  generalize isWhole : [program] = frames at onCourse
  cases onCourse with
  | alone course =>
      cases isWhole
      exact course
  | @below top outermost above course =>
      have lengths := congrArg List.length isWhole
      simp at lengths

/-- Before its last return, a program has one operand. -/
theorem Frame.Course.operand {start frame : Frame} {ops : List Op}
    (course : start.Course 0 frame) (renders : start.code.Renders (ops ++ [.bare (.bare .return)]))
    (atReturn : frame.ip = ops.length) : ∃ value, frame.stack = [value] := by
  obtain ⟨layout, flows, height⟩ := course.flows
  have denoted := List.forall₂_drop ops.length renders
  rw [List.drop_left, ← atReturn] at denoted
  generalize start.code.code.toList.drop frame.ip = remaining at denoted flows
  -- What is left is the return, which takes the only operand.
  cases denoted with
  | cons isReturn nothing =>
      cases isReturn
      cases nothing
      cases flows with
      | cons fits done =>
          cases done
          have heights : 0 + 1 = layout.length := fits.height
          exact List.length_eq_one_iff.mp (by omega)

namespace Machine

variable {start : Frame} {length : Nat} {left right : Machine}

/-- A program and its first part are under way, and the first part has not ended. -/
structure Abreast (config : Config) (start : Frame) (first : CodeUnit) (length : Nat)
    (left right : Machine) : Prop where
  paired : left.Paired (.opening start.code first length start.id) right
  regular : left.Regular config
  leftCourse : OnCourse start left.frames
  rightCourse : OnCourse { start with code := first } right.frames
  sessionContext : left.sessionContext = start.context

/-- The first part has ended, and the program is at its next statement. -/
structure Crossed (config : Config) (start : Frame) (first : CodeUnit) (length : Nat)
    (left right : Machine) : Prop where
  parted : Parted (.opening start.code first length start.id) left right
  regular : left.Regular config
  frames : left.frames = [{ start with ip := length + 1 }]
  sessionContext : left.sessionContext = start.context

/-- How a step of both comes out. -/
inductive Proceed (config : Config) (start : Frame) (first : CodeUnit) (length : Nat)
    (left right : Machine) : Prop
  | abreast {next other : Machine} : left.step = (next, .ok .running) →
      right.step = (other, .ok .running) → Abreast config start first length next other →
      Proceed config start first length left right
  | failed {next other : Machine} {fault otherFault : Fault} : left.step = (next, .error fault) →
      right.step = (other, .error otherFault) → fault.cause = otherFault.cause →
      next.output = other.output → Proceed config start first length left right
  | crossed {next other : Machine} {value : Value} : left.step = (next, .ok .running) →
      right.step = (other, .ok (.finished value)) → Crossed config start first length next other →
      Proceed config start first length left right

/-- Where the innermost activation is the program, it stands in its own code. -/
theorem places_of_stands {leftFrame rightFrame : Frame} {link : Link}
    (isPairing : link.pairing = .opening whole first length program)
    (frames : link.Frames leftFrame rightFrame) (isProgram : rightFrame.kind = .topLevel) :
    (Pairing.opening whole first length program).places leftFrame.standing rightFrame.standing := by
  have stands := frames.stands
  rw [isPairing] at stands
  have sameKind : rightFrame.kind = leftFrame.kind := by rw [frames.same]
  cases stands with
  | together together =>
      exact (together.shared (sameKind.symm.trans isProgram)).elim
  | apart _ places =>
      exact places

/-- Before its return the first part cannot end the program. -/
theorem Abreast.not_finished {leftFrame rightFrame : Frame} {others : List Frame} {link : Link}
    {next : Machine} {value : Value} (joined : Joined start.code first second body rest)
    (isPairing : link.pairing = .opening start.code first body.length start.id)
    (linked : link.Frames leftFrame rightFrame)
    (course : OnCourse { start with code := first } (rightFrame :: others))
    (isStart : start.kind = .topLevel)
    (notEnd : rightFrame.kind = .topLevel → rightFrame.ip ≠ body.length)
    (stepped : Exec.Stepped rightFrame others (.finished value) next.frames) : False := by
  cases stepped with
  | @completed above below _ ended _ isCut ends completed =>
      generalize isFrames : next.frames = frames at completed
      cases completed with
      | finished _ noneBelow =>
          subst noneBelow
          rw [isCut] at course
          obtain ⟨_, ofEnded⟩ := course.last
          have endedKind : ended.kind = .topLevel := by
            rw [ofEnded.same]
            exact isStart
          cases ends with
          | itself returns =>
              have places := places_of_stands isPairing linked endedKind
              obtain ⟨_, instruction, isNext, goesOn⟩ := joined.ready places (notEnd endedKind)
              rw [returns instruction isNext] at goesOn
              cases goesOn
          | home isBlock isNext isReturn isHome =>
              have stands := linked.stands
              rw [isPairing] at stands
              have sameKind : rightFrame.kind = leftFrame.kind := by rw [linked.same]
              cases stands with
              | together together =>
                  rcases together.homes with ⟨sameHome, notStart⟩ | ⟨noReturn, _⟩
                  · refine notStart (sameHome.trans (isHome.symm.trans ?_))
                    rw [ofEnded.same]
                  · rw [together.sameCode] at isNext
                    exact noReturn _ (Array.mem_toList_iff.mpr (Array.mem_of_getElem? isNext))
                      isReturn
              | apart isProgram _ =>
                  cases isBlock.symm.trans (sameKind.trans isProgram)

theorem Abreast.step (abreast : Abreast config start first body.length left right)
    (joined : Joined start.code first second body rest) (isStart : start.kind = .topLevel)
    (freshStack : start.stack = []) (unlimited : config.maxSteps = none) :
    Proceed config start first body.length left right := by
  obtain ⟨link, isPairing, machines⟩ := abreast.paired
  have leftCourse := abreast.leftCourse
  have rightCourse := abreast.rightCourse
  rcases machines.frames_cases with ⟨_, rightNone⟩ |
    ⟨leftFrame, leftRest, rightFrame, rightRest, leftFrames, rightFrames, linked, below⟩
  · rw [rightNone] at rightCourse
    cases rightCourse
  · rw [leftFrames] at leftCourse
    rw [rightFrames] at rightCourse
    have regularNext := abreast.regular.step
    by_cases atEnd : rightFrame.kind = .topLevel ∧ rightFrame.ip = body.length
    · obtain ⟨isProgram, isEnd⟩ := atEnd
      obtain ⟨_, leftCode, rightCode, samePlace, _⟩ := places_of_stands isPairing linked isProgram
      change leftFrame.code = start.code at leftCode
      change rightFrame.code = first at rightCode
      change rightFrame.ip = leftFrame.ip at samePlace
      have leftProgram : leftFrame.kind = .topLevel := by
        rw [← isProgram, linked.same]
      have innermost : left.frames = [] ++ leftFrame :: leftRest := leftFrames
      obtain rfl : leftRest = [] := (abreast.regular.homed.topLevel_iff innermost).mp leftProgram
      cases below
      -- The stack of the first part holds the value that it returns, and so does the other one.
      obtain ⟨value, rightStack⟩ := rightCourse.of_alone.operand joined.first isEnd
      have leftStack : leftFrame.stack = [value] := by
        rw [← rightStack, linked.same]
      have leftNext : leftFrame.code.code[leftFrame.ip]? = some (.bare .pop) := by
        rw [leftCode, ← samePlace, isEnd]
        refine joined.whole.at_bare ?_
        rw [List.getElem?_append_right (Nat.le_refl _), Nat.sub_self, List.getElem?_cons_zero]
      have rightNext : rightFrame.code.code[rightFrame.ip]? = some (.bare .return) := by
        rw [rightCode, isEnd]
        exact joined.first.at_bare List.getElem?_concat_length
      obtain ⟨next, reached, leftStep, rightStep, nextFrames, parted⟩ := abreast.paired.part
        (by rw [abreast.regular.limited.same]; exact unlimited) leftFrames rightFrames leftNext
        rightNext leftStack rightStack
      have sameContext := abreast.regular.sessionContext_step
      rw [leftStep] at regularNext sameContext
      refine .crossed leftStep rightStep
        ⟨parted, regularNext, ?_, sameContext.trans abreast.sessionContext⟩
      rw [nextFrames, leftCourse.of_alone.same, ← samePlace, isEnd, ← freshStack]
    · have notEnd : rightFrame.kind = .topLevel → rightFrame.ip ≠ body.length :=
        fun isProgram isEnd => atEnd ⟨isProgram, isEnd⟩
      have ready : (Pairing.opening start.code first body.length start.id).ReadyAmong left.frames
          right.frames := by
        rw [leftFrames, rightFrames]
        rintro _ ⟨⟩ _ ⟨⟩ places
        exact (joined.ready places (notEnd places.1)).1
      cases abreast.paired.stepsWith ready with
      | running leftStep rightStep paired =>
          refine .abreast leftStep rightStep ⟨paired, ?_, ?_, ?_, ?_⟩
          · rw [leftStep] at regularNext
            exact regularNext
          · exact leftCourse.stepped (stepped leftFrames leftStep)
          · exact rightCourse.stepped (stepped rightFrames rightStep)
          · have sameContext := abreast.regular.sessionContext_step
            rw [leftStep] at sameContext
            exact sameContext.trans abreast.sessionContext
      | failed leftStep rightStep sameCause paired =>
          obtain ⟨_, _, machines⟩ := paired
          exact .failed leftStep rightStep sameCause machines.output
      | finished leftStep rightStep _ =>
          exact (Abreast.not_finished joined isPairing linked rightCourse isStart notEnd
            (stepped rightFrames rightStep)).elim

/-- What the end of the first part means for the program: it goes on, or it has failed as well. -/
inductive Passes (config : Config) (start : Frame) (first : CodeUnit) (length : Nat)
    (left reached : Machine) : Except Fault Value → Prop
  | crossed {next : Machine} {value : Value} : left.Advances next →
      Crossed config start first length next reached →
      Passes config start first length left reached (.ok value)
  | failed {final : Machine} {fault otherFault : Fault} : left.Ends final (.error fault) →
      fault.cause = otherFault.cause → final.output = reached.output →
      Passes config start first length left reached (.error otherFault)

theorem Passes.later {next reached : Machine} {result : Except Fault Value}
    (stepped : left.step = (next, .ok .running))
    (passes : Passes config start first length next reached result) :
    Passes config start first length left reached result := by
  cases passes with
  | crossed advances crossed =>
      exact .crossed (advances.head stepped) crossed
  | failed ends sameCause sameOutput =>
      exact .failed (.later stepped ends) sameCause sameOutput

theorem Abreast.passes {reached : Machine} {result : Except Fault Value}
    (abreast : Abreast config start first body.length left right)
    (joined : Joined start.code first second body rest) (isStart : start.kind = .topLevel)
    (freshStack : start.stack = []) (unlimited : config.maxSteps = none)
    (ends : right.Ends reached result) :
    Passes config start first body.length left reached result := by
  induction ends generalizing left with
  | finished last =>
      cases abreast.step joined isStart freshStack unlimited with
      | abreast _ other _ | failed _ other _ _ =>
          rw [last] at other
          cases other
      | crossed leftStep rightStep crossed =>
          rw [last] at rightStep
          cases rightStep
          exact .crossed (.single leftStep) crossed
  | failed last =>
      cases abreast.step joined isStart freshStack unlimited with
      | abreast _ other _ | crossed _ other _ =>
          rw [last] at other
          cases other
      | failed leftStep rightStep sameCause sameOutput =>
          rw [last] at rightStep
          cases rightStep
          exact .failed (.failed leftStep) sameCause sameOutput
  | later stepped _ inductionHypothesis =>
      cases abreast.step joined isStart freshStack unlimited with
      | failed _ other _ _ | crossed _ other _ =>
          rw [stepped] at other
          cases other
      | abreast leftStep rightStep abreastNext =>
          rw [stepped] at rightStep
          cases rightStep
          exact (inductionHypothesis abreastNext).later leftStep

/-! ## The start -/

theorem regular_start {machine : Machine} {code : CodeUnit} (regular : machine.Regular config)
    (session : Session) (verified : code.verify = .ok ()) :
    (Machine.start { machine with session } code machine.sessionContext).Regular config := by
  have loaded := (regular.withSession session).after [.loadInSession code]
  change (loadInSession { machine with session } code).1.Regular config at loaded
  unfold loadInSession at loaded
  rw [verified] at loaded
  exact loaded

theorem onCourse_start (machine : Machine) {code : CodeUnit} (safe : code.Safe .topLevel)
    (context : ContextId) :
    OnCourse (machine.launched code context) (machine.start code context).frames := by
  cases safe with
  | intro flows _ =>
      exact .alone ⟨rfl, [], flows, rfl⟩

/-- The number of a program is new, so no block has it as its home yet. -/
theorem Regular.home_ne {machine : Machine} {id : ObjectId} {closure : Closure}
    (regular : machine.Regular config) (found : machine.store.get? id = some (.block closure)) :
    closure.home ≠ ⟨machine.lastFrame + 1⟩ := by
  intro isNew
  have issued := (regular.homed.blocks id closure found).issued
  rw [isNew] at issued
  exact Nat.not_succ_le_self _ issued

theorem Regular.abreast {machine : Machine} (regular : machine.Regular config)
    (session between : Session) (verified : whole.verify = .ok ())
    (safe : whole.Safe .topLevel) (firstSafe : first.Safe .topLevel) (length : Nat) :
    Abreast config (machine.launched whole machine.sessionContext) first length
      (Machine.start { machine with session } whole machine.sessionContext)
      (Machine.start { machine with session := between } first machine.sessionContext) := by
  refine ⟨?_, regular_start regular session verified,
    onCourse_start { machine with session } safe _,
    onCourse_start { machine with session := between } firstSafe _, rfl⟩
  obtain ⟨link, isSame, machines⟩ := regular.alike
  have memories : (link.under (.opening whole first length ⟨machine.lastFrame + 1⟩)).Memories
      machine machine := by
    refine machines.toMemories.under fun {id closure} found home homes => ?_
    rw [isSame] at homes
    exact homes.imp_left fun same => ⟨same, regular.home_ne found⟩
  refine ⟨_, rfl, { memories with }, .cons ?_ .nil, fun count => ⟨rfl, ?_⟩, fun _ => rfl,
    Or.inl trivial, rfl, fun _ impossible => (Option.not_mem_none _ impossible).elim⟩
  · exact ⟨rfl, fun paired => paired.1 ▸ Iff.rfl,
      .apart rfl ⟨rfl, rfl, rfl, rfl, Nat.zero_le _⟩, noneKnown, memories.sessionContext,
      Link.knows_nil, fun _ impossible => (Option.not_mem_none _ impossible).elim, .none⟩
  · intro same
    have numbers := congrArg FrameId.number same
    change machine.lastFrame + 1 + 1 + count = machine.lastFrame + 1 at numbers
    omega

end Machine

end Missive
