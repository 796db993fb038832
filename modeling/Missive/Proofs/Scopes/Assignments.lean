import Missive.Proofs.Memory.Handles
import Missive.Proofs.Steps.Returns

/-!
# Assignments to local variables

A step changes the local variables of a context only where its instruction assigns one, and then it
changes this one alone.  So a variable has the value that was assigned to it last, in whatever
activation that happened, and until then the value that it had at the beginning.
-/

namespace Missive

/-- The variable that the instruction assigns, as its context and its slot. -/
def Instruction.target? (contexts : Arena) (context : ContextId) (instruction : Instruction) :
    Option (ContextId × Nat) :=
  match instruction.opcode with
  | .storeLocal => some (context, Exec.elementCount instruction.operand)
  | .storeOuter => do
    let (slot, depth) := unpack instruction.operand
    let target ← contexts.resolve? context depth
    return (← target, slot)
  | _ => none

theorem Instruction.target?_eq_none {contexts : Arena} {context : ContextId}
    {instruction : Instruction} (other : instruction.assigns = false) :
    instruction.target? contexts context = none := by
  obtain ⟨opcode, operand⟩ := instruction
  cases opcode with
  | storeLocal | storeOuter =>
      cases other
  | _ =>
      rfl

namespace Exec

variable {machine : Machine} {current : Frame} {rest : List Frame}

/-- How an assignment ends: it fails and changes nothing, or the variable gets the value on top of
the stack. -/
inductive Assigned (machine : Machine) (current : Frame) (instruction : Instruction) :
    EStateM.Result Cause Machine StepState → Prop
  | failed (cause : Cause) : Assigned machine current instruction (.error cause machine)
  | done {context : ContextId} {slot : Nat} {value : Value} :
      current.stack.head? = some value →
      instruction.target? machine.contexts current.context = some (context, slot) →
      machine.contexts.isLive context = true →
      Assigned machine current instruction
        (.ok .running { machine with contexts := machine.contexts.put context slot value })

theorem peek_of_cons {value : Value} {operands : List Value}
    (frames : machine.frames = current :: rest) (stack : current.stack = value :: operands) :
    peek machine = .ok value machine := by
  unfold peek
  rw [bind_of_ok (frame_of_cons frames), stack]
  rfl

theorem peek_of_nil (frames : machine.frames = current :: rest) (stack : current.stack = []) :
    peek machine = .error .stackUnderflow machine := by
  unfold peek
  rw [bind_of_ok (frame_of_cons frames), stack]
  rfl

theorem storeSlot_of_live {context : ContextId} (isLive : machine.contexts.isLive context = true)
    (slot : Nat) (value : Value) :
    storeSlot context slot value machine =
      .ok () { machine with contexts := machine.contexts.put context slot value } := by
  unfold storeSlot
  rw [get_bind, if_pos isLive]
  rfl

theorem storeSlot_of_stale {context : ContextId}
    (stale : ¬ machine.contexts.isLive context = true) (slot : Nat) (value : Value) :
    storeSlot context slot value machine = .error .staleContext machine := by
  unfold storeSlot
  rw [get_bind, if_neg stale]
  rfl

/-- Stores the top of the stack in the variable that the instruction has found. -/
theorem assigned_storeSlot {instruction : Instruction} {context : ContextId} {slot : Nat}
    (frames : machine.frames = current :: rest)
    (isTarget : instruction.target? machine.contexts current.context = some (context, slot)) :
    Assigned machine current instruction
      (andGoOn (peek >>= fun value => storeSlot context slot value) machine) := by
  unfold andGoOn
  cases stack : current.stack with
  | nil =>
      rw [bind_of_error (bind_of_error (peek_of_nil frames stack))]
      exact .failed _
  | cons value operands =>
      have peeked := bind_of_ok (f := fun value => storeSlot context slot value)
        (peek_of_cons frames stack)
      by_cases isLive : machine.contexts.isLive context = true
      · rw [bind_of_ok (peeked.trans (storeSlot_of_live isLive slot value))]
        exact .done (by rw [stack]; rfl) isTarget isLive
      · rw [bind_of_error (peeked.trans (storeSlot_of_stale isLive slot value))]
        exact .failed _

theorem andGoOn_congr {effect other : Exec Unit} (same : effect machine = other machine) :
    andGoOn effect machine = andGoOn other machine := by
  change EStateM.bind effect _ machine = EStateM.bind other _ machine
  unfold EStateM.bind
  rw [same]

/-- Looking at the top of the stack changes nothing. -/
theorem peek_bind_congr {α : Type} {next other : Value → Exec α}
    (same : ∀ value, next value machine = other value machine) :
    (peek >>= next) machine = (peek >>= other) machine := by
  have unchanged : (∃ value, peek machine = .ok value machine) ∨
      ∃ cause, peek machine = .error cause machine := by
    cases frames : machine.frames with
    | nil =>
        refine Or.inr ⟨.noProgram, ?_⟩
        cases machine
        cases frames
        rfl
    | cons current rest =>
        unfold peek
        rw [bind_of_ok (frame_of_cons frames)]
        cases current.stack with
        | nil =>
            exact Or.inr ⟨_, rfl⟩
        | cons value _ =>
            exact Or.inl ⟨value, rfl⟩
  change EStateM.bind peek next machine = EStateM.bind peek other machine
  unfold EStateM.bind
  rcases unchanged with ⟨value, peeked⟩ | ⟨cause, peeked⟩
  · rw [peeked]
    exact same value
  · rw [peeked]

/-- An outer variable is found where the contexts go far enough outward. -/
theorem outerSlot_cases (instruction : Instruction) (frames : machine.frames = current :: rest) :
    (∃ cause, outerSlot instruction machine = .error cause machine) ∨
      ∃ context, machine.contexts.resolve? current.context
          (Instruction.unpack instruction.operand).2 = some (some context) ∧
        outerSlot instruction machine =
          .ok (context, (Instruction.unpack instruction.operand).1) machine := by
  unfold outerSlot
  dsimp only
  rw [get_bind, bind_of_ok (frame_of_cons frames)]
  cases machine.contexts.resolve? current.context (Instruction.unpack instruction.operand).2 with
  | none =>
      exact Or.inl ⟨_, rfl⟩
  | some target =>
      cases target with
      | none =>
          exact Or.inl ⟨_, rfl⟩
      | some context =>
          exact Or.inr ⟨context, rfl, rfl⟩

theorem assigned_execute {instruction : Instruction} (frames : machine.frames = current :: rest)
    (assigns : instruction.assigns = true) :
    Assigned machine current instruction (execute instruction machine) := by
  obtain ⟨opcode, operand⟩ := instruction
  cases opcode with
  | storeLocal =>
      have sameEnd : execute ⟨.storeLocal, operand⟩ machine =
          andGoOn (peek >>= fun value =>
            storeSlot current.context (elementCount operand) value) machine :=
        andGoOn_congr (peek_bind_congr fun value => bind_of_ok (frame_of_cons frames))
      rw [sameEnd]
      exact assigned_storeSlot frames rfl
  | storeOuter =>
      rcases outerSlot_cases ⟨.storeOuter, operand⟩ frames with
        ⟨cause, fails⟩ | ⟨context, resolved, found⟩
      · have fails : execute ⟨.storeOuter, operand⟩ machine = .error cause machine :=
          bind_of_error (bind_of_error fails)
        rw [fails]
        exact .failed cause
      · have sameEnd : execute ⟨.storeOuter, operand⟩ machine =
            andGoOn (peek >>= fun value =>
              storeSlot context (Instruction.unpack operand).1 value) machine :=
          andGoOn_congr (bind_of_ok found)
        rw [sameEnd]
        refine assigned_storeSlot frames ?_
        simp only [Instruction.target?, resolved]
        rfl
  | _ =>
      cases assigns

end Exec

/-! ## Steps -/

namespace Machine

variable {machine : Machine} {current : Frame} {rest : List Frame} {instruction : Instruction}

/-- The assignment that the next step makes, if it makes one. -/
def assignment? (machine : Machine) : Option Arena.Request :=
  match machine.frames, machine.step.2 with
  | current :: rest, .ok _ =>
    current.code.code[current.ip]?.bind fun instruction =>
      (instruction.target? (Exec.prepared machine current rest).contexts current.context).bind
        fun (context, slot) => current.stack.head?.map (.store context slot)
  | _, _ => none

theorem assignment?_of_ok {state : StepState} (frames : machine.frames = current :: rest)
    (next : current.code.code[current.ip]? = some instruction) (ok : machine.step.2 = .ok state) :
    machine.assignment? =
      (instruction.target? (Exec.prepared machine current rest).contexts current.context).bind
        fun target => current.stack.head?.map (Arena.Request.store target.1 target.2) := by
  unfold assignment?
  rw [frames, ok]
  dsimp only
  rw [next, Option.bind_some]

theorem assignment?_of_error {fault : Fault} (failed : machine.step.2 = .error fault) :
    machine.assignment? = none := by
  unfold assignment?
  rw [failed]
  split
  · rename_i impossible
    cases impossible
  · rfl

/-- The step of an assignment: it changes no more than the variable. -/
theorem step_of_assigns (frames : machine.frames = current :: rest)
    (next : current.code.code[current.ip]? = some instruction)
    (assigns : instruction.assigns = true) :
    machine.step.1 = { machine with steps := machine.steps + 1 } ∧ machine.assignment? = none ∨
      machine.step.1 =
        { Exec.prepared machine current rest with
          contexts := machine.assignment?.elim (Exec.prepared machine current rest).contexts
            (Exec.prepared machine current rest).contexts.serve } := by
  by_cases within : ∀ limit, machine.config.maxSteps = some limit → machine.steps < limit
  · have executes := Exec.step_of_within frames next within
    have advanced : (Exec.prepared machine current rest).frames =
        { current with ip := current.ip + 1 } :: rest := rfl
    have assigned := Exec.assigned_execute advanced assigns
    have stepped := step_of_cons frames
    rw [← executes] at assigned
    generalize Exec.step machine = result at assigned stepped
    right
    cases assigned with
    | failed cause =>
        rw [assignment?_of_error (congrArg Prod.snd stepped), stepped]
        rfl
    | @done context slot value isTop isTarget isLive =>
        have isTop : current.stack.head? = some value := isTop
        have isTarget : instruction.target? (Exec.prepared machine current rest).contexts
          current.context = some (context, slot) := isTarget
        rw [assignment?_of_ok frames next (congrArg Prod.snd stepped), isTarget, isTop, stepped]
        simp only [Option.bind_some, Option.map_some, Option.elim_some, Arena.serve, Arena.store?,
          isLive, if_true, Option.getD_some]
  · obtain ⟨limit, isLimit, spent⟩ : ∃ limit, machine.config.maxSteps = some limit ∧
        limit ≤ machine.steps := by
      simpa using within
    have stepped := step_of_cons frames
    rw [Exec.step_of_spent isLimit spent] at stepped
    exact Or.inl ⟨congrArg Prod.fst stepped, assignment?_of_error (congrArg Prod.snd stepped)⟩

/-- A step that is no assignment leaves all contexts as they are. -/
theorem retains_step_of_other (alike : machine.Alike machine) (bounded : machine.Bounded)
    (wellFormed : machine.contexts.WellFormed)
    (other : ∀ current rest instruction, machine.frames = current :: rest →
      current.code.code[current.ip]? = some instruction → instruction.assigns = false) :
    machine.contexts.Retains machine.step.1.contexts ∧ machine.step.1.contexts.WellFormed := by
  have obeys : machine.Obeys .unassigning := by
    intro current rest instruction frames next
    refine ⟨fun _ => trivial, fun refused => (refused trivial).elim, fun assigns => ?_⟩
    rw [other current rest instruction frames next] at assigns
    cases assigns
  exact (moves_step_of alike bounded obeys).1.retains id wellFormed

theorem assignment?_of_other
    (other : ∀ current rest instruction, machine.frames = current :: rest →
      current.code.code[current.ip]? = some instruction → instruction.assigns = false) :
    machine.assignment? = none := by
  unfold assignment?
  split
  · rename_i current rest _ frames _
    cases next : current.code.code[current.ip]? with
    | none =>
        rfl
    | some instruction =>
        rw [Option.bind_some,
          Instruction.target?_eq_none (other current rest instruction frames next)]
        rfl
  · rfl

/-- Contexts come and go in a step, and then it may make its assignment. -/
theorem step_contexts (alike : machine.Alike machine) (bounded : machine.Bounded)
    (wellFormed : machine.contexts.WellFormed) :
    ∃ arena, machine.contexts.Retains arena ∧ arena.WellFormed ∧
      machine.step.1.contexts = machine.assignment?.elim arena arena.serve := by
  by_cases assigns : ∃ current rest instruction, machine.frames = current :: rest ∧
      current.code.code[current.ip]? = some instruction ∧ instruction.assigns = true
  · obtain ⟨current, rest, instruction, frames, next, assigns⟩ := assigns
    have quiet := machine.quiet_counted_tidied
    rcases step_of_assigns frames next assigns with ⟨stepped, nothing⟩ | stepped
    · rw [stepped, nothing]
      exact ⟨machine.contexts, .refl _, wellFormed, rfl⟩
    · rw [stepped]
      exact ⟨_, quiet.contexts, quiet.wellFormed wellFormed, rfl⟩
  · have other : ∀ current rest instruction, machine.frames = current :: rest →
        current.code.code[current.ip]? = some instruction → instruction.assigns = false := by
      intro current rest instruction frames next
      exact Bool.eq_false_iff.mpr fun does => assigns ⟨_, _, _, frames, next, does⟩
    obtain ⟨retains, stillWellFormed⟩ := retains_step_of_other alike bounded wellFormed other
    rw [assignment?_of_other other]
    exact ⟨_, retains, stillWellFormed, rfl⟩

/-! ## Runs -/

/-- The assignments that commands lead to, in their order. -/
def assignments (machine : Machine) : List Command → List Arena.Request
  | [] => []
  | .step :: rest => machine.assignment?.toList ++ machine.step.1.assignments rest
  | command :: rest => (machine.obey command).1.assignments rest

end Machine

theorem Arena.lastStored?_append (id : ContextId) (slot : Nat) (requests further : List Request) :
    lastStored? id slot (requests ++ further) =
      (lastStored? id slot further).or (lastStored? id slot requests) := by
  unfold lastStored?
  rw [List.reverse_append, List.findSome?_append]

theorem Arena.Retains.load? {older newer : Arena} {id : ContextId} (retains : older.Retains newer)
    (issued : older.Issued id) (isLive : newer.isLive id = true) :
    older.isLive id = true ∧ ∀ slot, newer.load? id slot = older.load? id slot := by
  obtain ⟨context, found⟩ := Arena.isLive_iff.mp isLive
  have was := retains.same issued found
  exact ⟨Arena.isLive_iff.mpr ⟨context, was⟩, fun slot => by unfold Arena.load?; rw [found, was]⟩

namespace Machine

variable {machine : Machine} {id : ContextId}

/-- What one command does to a context. -/
theorem load?_obey (alike : machine.Alike machine) (bounded : machine.Bounded)
    (wellFormed : machine.contexts.WellFormed) (issued : machine.contexts.Issued id)
    (command : Command) (isLive : (machine.obey command).1.contexts.isLive id = true) :
    machine.contexts.isLive id = true ∧ ∀ slot,
      (machine.obey command).1.contexts.load? id slot =
        (Arena.lastStored? id slot (machine.assignments [command])).or
          (machine.contexts.load? id slot) := by
  have unassigned : ∀ arena, machine.contexts.Retains arena → arena.isLive id = true →
      machine.contexts.isLive id = true ∧ ∀ slot, arena.load? id slot =
        (Arena.lastStored? id slot []).or (machine.contexts.load? id slot) :=
    fun _ retains live => retains.load? issued live
  cases command with
  | load unit =>
      refine unassigned _ ?_ isLive
      change machine.contexts.Retains (machine.load unit).1.contexts
      unfold load
      split
      · exact .refl _
      · exact Arena.retains_alloc wellFormed _
  | loadInSession unit =>
      refine unassigned _ ?_ isLive
      change machine.contexts.Retains (machine.loadInSession unit).1.contexts
      unfold loadInSession
      split <;> exact .refl _
  | collect =>
      exact unassigned _ machine.quiet_collectGarbage.contexts isLive
  | step =>
      obtain ⟨arena, retains, stillWellFormed, contexts⟩ := step_contexts alike bounded wellFormed
      have assigned : machine.assignments [.step] = machine.assignment?.toList :=
        List.append_nil _
      change machine.step.1.contexts.isLive id = true at isLive
      change _ ∧ ∀ slot, machine.step.1.contexts.load? id slot = _
      rw [contexts] at isLive ⊢
      rw [assigned]
      cases made : machine.assignment? with
      | none =>
          rw [made] at isLive
          exact unassigned arena retains isLive
      | some request =>
          rw [made] at isLive
          obtain ⟨liveBetween, stored⟩ :=
            Arena.load?_serve stillWellFormed (retains.issued issued) request isLive
          obtain ⟨liveBefore, same⟩ := retains.load? issued liveBetween
          refine ⟨liveBefore, fun slot => ?_⟩
          rw [Option.elim_some, stored, same]
          simp [Arena.lastStored?]

/-- What commands do to a context: its variables have the values that were assigned last. -/
theorem load?_after (alike : machine.Alike machine) (bounded : machine.Bounded)
    (wellFormed : machine.contexts.WellFormed) (issued : machine.contexts.Issued id)
    (commands : List Command) (isLive : (machine.after commands).contexts.isLive id = true) :
    machine.contexts.isLive id = true ∧ ∀ slot,
      (machine.after commands).contexts.load? id slot =
        (Arena.lastStored? id slot (machine.assignments commands)).or
          (machine.contexts.load? id slot) := by
  induction commands generalizing machine with
  | nil =>
      exact ⟨isLive, fun _ => rfl⟩
  | cons command rest inductionHypothesis =>
      have moves := moves_obey alike bounded (Licence.allows_any command)
      obtain ⟨keeps, stillWellFormed⟩ := moves.contexts wellFormed
      have alikeNext : (machine.obey command).1.Alike (machine.obey command).1 :=
        alike.after [command]
      obtain ⟨liveNext, later⟩ := inductionHypothesis alikeNext
        (moves.keep (fun move => move.bounded) bounded) stillWellFormed (keeps.issued issued) isLive
      obtain ⟨liveNow, first⟩ := load?_obey alike bounded wellFormed issued command liveNext
      refine ⟨liveNow, fun slot => ?_⟩
      have together : machine.assignments (command :: rest) =
          machine.assignments [command] ++ (machine.obey command).1.assignments rest := by
        cases command with
        | step =>
            exact congrArg (· ++ _) (List.append_nil _).symm
        | load _ | loadInSession _ | collect =>
            rfl
      change ((machine.obey command).1.after rest).contexts.load? id slot = _
      rw [later, first, together, Arena.lastStored?_append, Option.or_assoc]

end Machine

end Missive
