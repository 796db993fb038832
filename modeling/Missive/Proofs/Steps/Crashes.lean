import Missive.Proofs.Protocol.Understanding
import Missive.Proofs.Steps.Limits

/-!
# Which steps crash

Two kinds of instructions can make the machine go down.  One sends a message that compares values or
that asks for too many integers, the other makes a dictionary and compares its keys.  All the others
fail for ordinary causes or not at all.
-/

namespace Missive

/-! ## Ordinary parts -/

section Computations

variable {σ α β : Type} {state reached : σ} {crash : Crash}

theorem Ordinary.not_crash {x : EStateM Cause σ α} (ordinary : Ordinary x) :
    x state ≠ .error (.crash crash) reached := by
  intro failed
  cases ordinary state _ reached failed

/-- What crashes after an ordinary part crashes in what follows. -/
theorem Ordinary.crash_bind {x : EStateM Cause σ α} {f : α → EStateM Cause σ β}
    (ordinary : Ordinary x) (failed : (x >>= f) state = .error (.crash crash) reached) :
    ∃ result between, x state = .ok result between ∧
      f result between = .error (.crash crash) reached := by
  change EStateM.bind x f state = _ at failed
  unfold EStateM.bind at failed
  cases outcome : x state with
  | ok result between =>
      rw [outcome] at failed
      exact ⟨result, between, rfl, failed⟩
  | error cause between =>
      rw [outcome] at failed
      cases failed
      exact (ordinary.not_crash outcome).elim

end Computations

namespace Exec

variable {machine reached : Machine} {current : Frame} {rest : List Frame} {crash : Crash}

/-! ## Operands and variables -/

theorem ordinary_modifyFrame (change : Frame → Frame) : Ordinary (modifyFrame change) :=
  ordinary_modify _

theorem ordinary_pop : Ordinary pop := by
  refine ordinary_frame.bind fun current => ?_
  split
  · exact (ordinary_modifyFrame _).bind fun _ => ordinary_pure _
  · exact ordinary_throw rfl

theorem ordinary_peek : Ordinary peek := by
  refine ordinary_frame.bind fun current => ?_
  split
  · exact ordinary_pure _
  · exact ordinary_throw rfl

theorem ordinary_popMany (count : Nat) : Ordinary (popMany count) := by
  refine ordinary_frame.bind fun current => ?_
  dsimp only
  split
  · exact (ordinary_throw rfl).bind fun _ => (ordinary_modifyFrame _).bind fun _ => ordinary_pure _
  · exact (ordinary_modifyFrame _).bind fun _ => ordinary_pure _

theorem ordinary_constantAt? (index : Option Nat) : Ordinary (constantAt? index) :=
  ordinary_frame.bind fun _ => ordinary_pure _

theorem ordinary_nameOperand (instruction : Instruction) : Ordinary (nameOperand instruction) := by
  refine (ordinary_constantAt? _).bind fun constant => ?_
  split
  · exact ordinary_pure _
  · exact ordinary_throw rfl

theorem ordinary_expectLive {α : Type} (answer : Option α) : Ordinary (expectLive answer) := by
  cases answer with
  | some result =>
      exact ordinary_pure result
  | none =>
      exact ordinary_throw rfl

theorem ordinary_loadSlot (context : ContextId) (slot : Nat) : Ordinary (loadSlot context slot) :=
  ordinary_get_bind fun _ => (ordinary_expectLive _).bind fun value => ordinary_push value

theorem ordinary_storeSlot (context : ContextId) (slot : Nat) (value : Value) :
    Ordinary (storeSlot context slot value) := by
  refine ordinary_get_bind fun machine => ?_
  split
  · exact ordinary_modify _
  · exact ordinary_throw rfl

theorem ordinary_outerSlot (instruction : Instruction) : Ordinary (outerSlot instruction) := by
  refine ordinary_get_bind fun machine => ordinary_frame.bind fun current => ?_
  refine (ordinary_expectLive _).bind fun found => ?_
  split
  · exact ordinary_pure _
  · exact ordinary_throw rfl

theorem ordinary_receiverRecord : Ordinary receiverRecord := by
  refine ordinary_frame.bind fun current => ordinary_get_bind fun machine => ?_
  dsimp only
  split
  · exact ordinary_pure _
  · exact ordinary_throw rfl

theorem ordinary_throw_fieldFault {α : Type} (classId : ObjectId) (index : Nat) :
    Ordinary (do throw (← fieldFault classId index) : Exec α) := by
  rintro _ _ _ ⟨⟩
  rfl

theorem ordinary_loadField (index : Nat) : Ordinary (loadField index) := by
  refine ordinary_receiverRecord.bind fun record => ?_
  dsimp only
  split
  · exact ordinary_push _
  · exact ordinary_throw_fieldFault _ _

theorem ordinary_storeField (index : Nat) : Ordinary (storeField index) := by
  refine ordinary_receiverRecord.bind fun record => ordinary_peek.bind fun value => ?_
  split
  · exact ordinary_modify _
  · exact ordinary_throw_fieldFault _ _

theorem ordinary_owner (opcode : Opcode) : Ordinary (owner opcode) := by
  refine ordinary_frame.bind fun current => ?_
  split
  · exact ordinary_pure _
  · exact ordinary_throw rfl

theorem ordinary_loadClassVar (instruction : Instruction) :
    Ordinary (loadClassVar instruction) := by
  refine (ordinary_nameOperand _).bind fun name => (ordinary_owner _).bind fun id => ?_
  refine ordinary_get_bind fun machine => ?_
  split
  · exact ordinary_push _
  · exact ordinary_throw rfl

theorem ordinary_storeClassVar (instruction : Instruction) :
    Ordinary (storeClassVar instruction) := by
  refine (ordinary_nameOperand _).bind fun name => (ordinary_owner _).bind fun id => ?_
  refine ordinary_peek.bind fun value => ordinary_get_bind fun machine => ?_
  split
  · exact ordinary_modify _
  · exact ordinary_throw rfl

theorem ordinary_loadGlobal (instruction : Instruction) : Ordinary (loadGlobal instruction) := by
  refine (ordinary_nameOperand _).bind fun name => ordinary_get_bind fun machine => ?_
  split
  · exact ordinary_push _
  · exact ordinary_throw rfl

theorem ordinary_storeGlobal (instruction : Instruction) : Ordinary (storeGlobal instruction) :=
  (ordinary_nameOperand _).bind fun _ => ordinary_peek.bind fun _ => ordinary_modify _

/-! ## Objects, returns and jumps -/

theorem ordinary_pushConstant (instruction : Instruction) :
    Ordinary (pushConstant instruction) := by
  refine (ordinary_constantAt? _).bind fun constant => ?_
  split
  all_goals first | exact ordinary_push _ | exact ordinary_throw rfl

theorem ordinary_newInstance : Ordinary newInstance := by
  refine ordinary_pop.bind fun value => ordinary_get_bind fun machine => ?_
  dsimp only
  split
  · exact (ordinary_modify _).bind fun _ => ordinary_pushTracked _
  · exact ordinary_throw rfl

theorem ordinary_superclassOf (descriptor : ClassDescriptor) :
    Ordinary (superclassOf descriptor) := by
  unfold superclassOf
  split
  · exact ordinary_pure _
  · refine ordinary_get_bind fun machine => ?_
    split
    · exact ordinary_pure _
    · exact ordinary_throw rfl

theorem ordinary_defineClass (instruction : Instruction) : Ordinary (defineClass instruction) := by
  refine (ordinary_constantAt? _).bind fun constant => ?_
  split
  · exact (ordinary_superclassOf _).bind fun superclass => ordinary_get_bind fun machine =>
      (ordinary_modify _).bind fun _ => ordinary_pushTracked _
  · exact ordinary_throw rfl
  · exact ordinary_throw rfl

theorem ordinary_makeClosure (instruction : Instruction) : Ordinary (makeClosure instruction) := by
  refine (ordinary_constantAt? _).bind fun constant => ?_
  split
  · exact ordinary_frame.bind fun current => ordinary_get_bind fun machine =>
      (ordinary_modify _).bind fun _ => ordinary_pushTracked _
  · exact ordinary_throw rfl

theorem ordinary_makeArray (count : Nat) : Ordinary (makeArray count) :=
  (ordinary_popMany _).bind fun _ => ordinary_get_bind fun _ =>
    (ordinary_modify _).bind fun _ => ordinary_pushTracked _

theorem ordinary_complete (value : Value) : Ordinary (complete value) := by
  refine ordinary_get_bind fun machine => ?_
  split
  · exact ordinary_throw rfl
  · refine (ordinary_modify _).bind fun _ => ?_
    split
    · exact (ordinary_modify _).bind fun _ => ordinary_pure _
    · split
      · exact (ordinary_push value).bind fun _ => ordinary_pure _
      · exact (ordinary_onStore (Iteration.ordinary_advance _ _)).bind fun action =>
          (ordinary_perform action).bind fun _ => ordinary_pure _

theorem ordinary_returnFromHome (value : Value) : Ordinary (returnFromHome value) := by
  refine ordinary_frame.bind fun current => ?_
  dsimp only
  split
  · refine ordinary_get_bind fun machine => ?_
    split
    · exact (ordinary_modify _).bind fun _ => ordinary_complete value
    · exact (ordinary_throw rfl).bind fun _ => ordinary_complete value
  · exact ordinary_complete value

theorem ordinary_jumpIfFalse (operand : Int32) : Ordinary (jumpIfFalse operand) := by
  refine ordinary_pop.bind fun value => ?_
  split
  · exact ordinary_modifyFrame _
  · exact ordinary_pure ()
  · exact ordinary_get_bind fun _ => ordinary_throw rfl

/-! ## Messages -/

theorem ordinary_takeMessage (instruction : Instruction) : Ordinary (takeMessage instruction) := by
  refine (ordinary_constantAt? _).bind fun constant => ?_
  split
  · exact (ordinary_popMany _).bind fun _ => ordinary_pop.bind fun _ => ordinary_pure _
  · exact ordinary_throw rfl

theorem ordinary_checkArgumentCount (selector : Selector) (given : Nat) :
    Ordinary (checkArgumentCount selector given) := by
  unfold checkArgumentCount
  split
  · exact ordinary_throw rfl
  · exact ordinary_pure ()

theorem arity_of_checkArgumentCount {selector : Selector} {given : Nat}
    (checked : checkArgumentCount selector given machine = .ok () reached) :
    selector.arity = given := by
  unfold checkArgumentCount at checked
  split at checked
  · cases checked
  · rename_i fits
    exact not_not.mp fits

variable {receiver : Value} {selector : Selector} {arguments : List Value}

theorem crash_of_excused {α : Type} {state final : Machine} {provoked : Crash → Prop} {x : Exec α}
    (excused : Excused state provoked x) (failed : x state = .error (.crash crash) final) :
    final = state ∧ provoked crash := by
  rcases excused _ _ failed with impossible | ⟨_, same, isReached, isProvoked⟩
  · cases impossible
  · cases same
    exact ⟨isReached, isProvoked⟩

theorem crash_of_respondUniversally
    (failed : respondUniversally receiver selector arguments machine =
      .error (.crash crash) reached) :
    reached = machine ∧ machine.store.Provokes receiver selector arguments crash := by
  cases universal : machine.store.universalResponse? receiver selector with
  | some response =>
      rw [respondUniversally_of_some universal] at failed
      exact crash_of_excused
        (excused_perform_onStore (Store.excused_of_universalResponse? universal arguments)) failed
  | none =>
      rw [respondUniversally_of_none universal] at failed
      cases failed

theorem crash_of_send
    (failed : send receiver selector arguments machine = .error (.crash crash) reached) :
    selector.arity = arguments.length ∧ reached = machine ∧
      machine.store.Provokes receiver selector arguments crash := by
  obtain ⟨_, _, checked, _⟩ := (ordinary_checkArgumentCount _ _).crash_bind failed
  have fits := arity_of_checkArgumentCount checked
  refine ⟨fits, ?_⟩
  cases responds : machine.store.respondsTo receiver selector with
  | true =>
      exact crash_of_excused (excused_send_of_respondsTo fits.symm responds) failed
  | false =>
      rw [send_of_not_respondsTo fits.symm responds] at failed
      cases failed

theorem crash_of_superSend (frames : machine.frames = current :: rest)
    (failed : superSend receiver selector arguments machine = .error (.crash crash) reached) :
    selector.arity = arguments.length ∧ reached = machine ∧
      machine.store.Provokes receiver selector arguments crash := by
  obtain ⟨_, _, checked, afterwards⟩ := (ordinary_checkArgumentCount _ _).crash_bind failed
  obtain rfl := eq_of_checkArgumentCount checked
  refine ⟨arity_of_checkArgumentCount checked, ?_⟩
  rw [bind_of_ok (frame_of_cons frames)] at afterwards
  obtain ⟨id, _, owned, looked⟩ := (ordinary_owner _).crash_bind afterwards
  obtain rfl := eq_of_owner owned
  rw [get_bind] at looked
  cases inherited : inheritedMethod? machine.store id current.classSide selector with
  | some found =>
      rw [inherited] at looked
      exact ((ordinary_callMethod _ _ _ _ _ _).not_crash looked).elim
  | none =>
      rw [inherited] at looked
      exact crash_of_respondUniversally looked

end Exec

/-! ## Dictionaries -/

namespace Entries

variable {store : Store} {crash : Crash} {key value : Value}

/-- The keys after a store are those from before and the new one. -/
theorem key_of_insert {entries changed : List (Value × Value)}
    (inserted : insert store none entries key value = .ok changed) :
    ∀ entry ∈ changed, entry.1 = key ∨ ∃ before ∈ entries, before.1 = entry.1 := by
  intro entry member
  obtain ⟨place, _, answered⟩ := Except.bind_eq_ok.mp inserted
  cases place with
  | none =>
      cases answered
      rcases List.mem_append.mp member with isOld | isNew
      · exact Or.inr ⟨entry, isOld, rfl⟩
      · rw [List.mem_singleton.mp isNew]
        exact Or.inl rfl
  | some index =>
      cases answered
      obtain ⟨position, atPosition⟩ := List.mem_iff_getElem?.mp member
      rw [List.getElem?_modify] at atPosition
      obtain ⟨before, present, same⟩ := Option.map_eq_some_iff.mp atPosition
      refine Or.inr ⟨before, List.mem_of_getElem? present, ?_⟩
      split at same <;> rw [← same]

/-- Only a comparison of two of the keys crashes, by induction on the pairs that are still to be
inserted. -/
theorem crash_of_ofPairs {pairs : List (Value × Value)}
    (crashed : ofPairs store pairs = .error crash) :
    ∃ pair ∈ pairs, ∃ other ∈ pairs, store.equals none other.1 pair.1 = .error crash := by
  have ofRest : ∀ (rest entries : List (Value × Value)), (∀ pair ∈ rest, pair ∈ pairs) →
      (∀ entry ∈ entries, ∃ pair ∈ pairs, pair.1 = entry.1) →
      rest.foldlM (fun entries pair => insert store none entries pair.1 pair.2) entries =
        .error crash →
      ∃ pair ∈ pairs, ∃ other ∈ pairs, store.equals none other.1 pair.1 = .error crash := by
    intro rest
    induction rest with
    | nil =>
        intro _ _ _ impossible
        cases impossible
    | cons pair rest inductionHypothesis =>
        intro entries arePairs areKeys folded
        obtain ⟨isPair, othersArePairs⟩ := List.forall_mem_cons.mp arePairs
        rw [List.foldlM_cons] at folded
        rcases Except.bind_eq_error.mp folded with storing | ⟨changed, inserted, further⟩
        · obtain ⟨entry, isEntry, crashes⟩ := crash_of_findPosition (crash_of_insert storing)
          obtain ⟨other, isOther, sameKey⟩ := areKeys entry isEntry
          exact ⟨pair, isPair, other, isOther, sameKey ▸ crashes⟩
        · refine inductionHypothesis changed othersArePairs (fun entry isEntry => ?_) further
          rcases key_of_insert inserted entry isEntry with isNew | ⟨before, isBefore, sameKey⟩
          · exact ⟨pair, isPair, isNew.symm⟩
          · exact sameKey ▸ areKeys before isBefore
  exact ofRest pairs [] (fun _ isPair => isPair)
    (fun _ impossible => (List.not_mem_nil impossible).elim) crashed

end Entries

/-! ## Instructions -/

/-- The instruction of the activation makes the machine go down. -/
inductive Frame.Provokes (frame : Frame) (instruction : Instruction) (store : Store) :
    Crash → Prop
  /-- The message that is sent does. -/
  | message {receiver : Value} {selector : Selector} {arguments operands : List Value}
      {crash : Crash} : instruction.opcode = .send ∨ instruction.opcode = .superSend →
      frame.Sends instruction receiver selector arguments operands →
      store.Provokes receiver selector arguments crash →
      Provokes frame instruction store crash
  /-- Two keys of the dictionary to be made are compared, and this has no end. -/
  | dictionary {items operands : List Value} {pair other : Value × Value} :
      instruction.opcode = .makeDictionary →
      items.length = 2 * Exec.elementCount instruction.operand →
      frame.stack = items.reverse ++ operands →
      pair ∈ Exec.pairs items → other ∈ Exec.pairs items →
      (∀ fuel, store.equalsAt none fuel 0 other.1 pair.1 = .error .endlessComparison) →
      Provokes frame instruction store .endlessComparison

namespace Exec

variable {machine reached : Machine} {current : Frame} {rest : List Frame} {crash : Crash}
  {instruction : Instruction}

theorem ordinary_andGoOn {effect : Exec Unit} (ordinary : Ordinary effect) :
    Ordinary (andGoOn effect) :=
  ordinary.bind fun _ => ordinary_pure _

theorem crash_of_andGoOn {effect : Exec Unit}
    (failed : andGoOn effect machine = .error (.crash crash) reached) :
    effect machine = .error (.crash crash) reached := by
  change EStateM.bind effect _ machine = _ at failed
  unfold EStateM.bind at failed
  cases outcome : effect machine with
  | ok answer between =>
      rw [outcome] at failed
      cases failed
  | error cause between =>
      rw [outcome] at failed
      cases failed
      rfl

/-- A message is taken from the stack, and then only what it does can crash. -/
theorem crash_of_message {respond : Value × Selector × List Value → Exec Unit}
    (frames : machine.frames = current :: rest)
    (isMessage : instruction.opcode = .send ∨ instruction.opcode = .superSend)
    (crashes : ∀ {receiver selector arguments between operands},
      between = { machine with frames := { current with stack := operands } :: rest } →
      respond (receiver, selector, arguments) between = .error (.crash crash) reached →
      selector.arity = arguments.length ∧ reached = between ∧
        between.store.Provokes receiver selector arguments crash)
    (failed : (takeMessage instruction >>= respond) machine = .error (.crash crash) reached) :
    current.Provokes instruction reached.store crash := by
  obtain ⟨⟨receiver, selector, arguments⟩, between, taken, responding⟩ :=
    (ordinary_takeMessage _).crash_bind failed
  obtain ⟨operands, sends, isBetween⟩ := sends_of_takeMessage frames taken
  obtain ⟨fits, rfl, provokes⟩ := crashes isBetween responding
  exact .message isMessage (sends fits) provokes

theorem crash_of_makeDictionary (frames : machine.frames = current :: rest)
    (isDictionary : instruction.opcode = .makeDictionary)
    (failed : makeDictionary (elementCount instruction.operand) machine =
      .error (.crash crash) reached) :
    current.Provokes instruction reached.store crash := by
  obtain ⟨items, between, popped, making⟩ := (ordinary_popMany _).crash_bind failed
  obtain ⟨operands, count, isStack, rfl⟩ := append_of_popMany frames popped
  rw [onStore_settle_bind] at making
  cases made : Entries.ofPairs machine.store (pairs items) with
  | ok entries =>
      rw [made] at making
      -- What is left puts the dictionary among the objects and on the stack.
      have pushes : Ordinary (get >>= fun machine : Machine =>
          let made := machine.store.alloc (.dictionary entries)
          (modify fun reached => { reached with store := made.2 }) >>= fun _ =>
            pushTracked (.ref made.1)) :=
        ordinary_get_bind fun _ => (ordinary_modify _).bind fun _ => ordinary_pushTracked _
      exact (pushes.not_crash making).elim
  | error cause =>
      rw [made] at making
      cases making
      obtain ⟨pair, isPair, other, isOther, crashes⟩ := Entries.crash_of_ofPairs made
      obtain rfl := Store.endless_of_equals crashes
      exact .dictionary isDictionary count isStack isPair isOther
        (Store.equals_endless_iff.mp crashes)

theorem ordinary_execute (notSend : instruction.opcode ≠ .send)
    (notSuperSend : instruction.opcode ≠ .superSend)
    (notDictionary : instruction.opcode ≠ .makeDictionary) : Ordinary (execute instruction) := by
  unfold execute
  dsimp only
  cases opcode : instruction.opcode with
  | send =>
      exact (notSend opcode).elim
  | superSend =>
      exact (notSuperSend opcode).elim
  | makeDictionary =>
      exact (notDictionary opcode).elim
  | pushConstant =>
      exact ordinary_andGoOn (ordinary_pushConstant _)
  | pop =>
      exact ordinary_andGoOn (ordinary_pop.bind fun _ => ordinary_pure ())
  | dup =>
      exact ordinary_andGoOn (ordinary_peek.bind ordinary_push)
  | loadLocal =>
      exact ordinary_andGoOn (ordinary_frame.bind fun _ => ordinary_loadSlot _ _)
  | storeLocal =>
      exact ordinary_andGoOn (ordinary_peek.bind fun _ => ordinary_frame.bind fun _ =>
        ordinary_storeSlot _ _ _)
  | loadOuter =>
      exact ordinary_andGoOn ((ordinary_outerSlot _).bind fun _ => ordinary_loadSlot _ _)
  | storeOuter =>
      exact ordinary_andGoOn ((ordinary_outerSlot _).bind fun _ => ordinary_peek.bind fun _ =>
        ordinary_storeSlot _ _ _)
  | loadField =>
      exact ordinary_andGoOn (ordinary_loadField _)
  | storeField =>
      exact ordinary_andGoOn (ordinary_storeField _)
  | loadClassVar =>
      exact ordinary_andGoOn (ordinary_loadClassVar _)
  | storeClassVar =>
      exact ordinary_andGoOn (ordinary_storeClassVar _)
  | loadGlobal =>
      exact ordinary_andGoOn (ordinary_loadGlobal _)
  | storeGlobal =>
      exact ordinary_andGoOn (ordinary_storeGlobal _)
  | jump =>
      exact ordinary_andGoOn (ordinary_modifyFrame _)
  | jumpIfFalse =>
      exact ordinary_andGoOn (ordinary_jumpIfFalse _)
  | pushSelf =>
      exact ordinary_andGoOn (ordinary_frame.bind fun _ => ordinary_push _)
  | pushNil | pushTrue | pushFalse =>
      exact ordinary_andGoOn (ordinary_push _)
  | newInstance =>
      exact ordinary_andGoOn ordinary_newInstance
  | defineClass =>
      exact ordinary_andGoOn (ordinary_defineClass _)
  | makeClosure =>
      exact ordinary_andGoOn (ordinary_makeClosure _)
  | makeArray =>
      exact ordinary_andGoOn (ordinary_makeArray _)
  | «return» =>
      exact ordinary_pop.bind ordinary_complete
  | nonLocalReturn =>
      exact ordinary_pop.bind ordinary_returnFromHome

theorem crash_of_execute (frames : machine.frames = current :: rest)
    (failed : execute instruction machine = .error (.crash crash) reached) :
    current.Provokes instruction reached.store crash := by
  by_cases isSend : instruction.opcode = .send
  · simp only [execute, isSend] at failed
    refine crash_of_message frames (Or.inl isSend) ?_ (crash_of_andGoOn failed)
    rintro receiver selector arguments _ operands rfl sending
    exact crash_of_send sending
  by_cases isSuperSend : instruction.opcode = .superSend
  · simp only [execute, isSuperSend] at failed
    refine crash_of_message frames (Or.inr isSuperSend) ?_ (crash_of_andGoOn failed)
    rintro receiver selector arguments _ operands rfl sending
    exact crash_of_superSend rfl sending
  by_cases isDictionary : instruction.opcode = .makeDictionary
  · simp only [execute, isDictionary] at failed
    exact crash_of_makeDictionary frames isDictionary (crash_of_andGoOn failed)
  exact ((ordinary_execute isSend isSuperSend isDictionary).not_crash failed).elim

theorem crash_of_instructionStep
    (failed : instructionStep machine = .error (.crash crash) reached) :
    ∃ current rest instruction, machine.frames = current :: rest ∧
      current.code.code[current.ip]? = some instruction ∧
      current.Provokes instruction reached.store crash := by
  obtain ⟨current, between, isFrame, ending⟩ := ordinary_frame.crash_bind failed
  cases frames : machine.frames with
  | nil =>
      rw [frame_of_nil frames] at isFrame
      cases isFrame
  | cons innermost rest =>
      rw [frame_of_cons frames] at isFrame
      cases isFrame
      cases next : current.code.code[current.ip]? with
      | none =>
          rw [next] at ending
          exact ((ordinary_complete _).not_crash ending).elim
      | some instruction =>
          rw [instructionStep_of_some frames next] at failed
          refine ⟨current, rest, instruction, rfl, next, ?_⟩
          -- That the position has gone on makes no difference to what the instruction is given.
          cases crash_of_execute rfl failed with
          | message isMessage sends provokes =>
              exact .message isMessage ⟨sends.selected, sends.count, sends.arity, sends.stack⟩
                provokes
          | dictionary isDictionary count isStack isPair isOther endless =>
              exact .dictionary isDictionary count isStack isPair isOther endless

end Exec

/-! ## Steps and runs -/

namespace Machine

variable {machine final : Machine} {fault : Fault} {crash : Crash}

/-- The next instruction makes the machine go down. -/
def Provokes (machine : Machine) (crash : Crash) : Prop :=
  ∃ current rest instruction, machine.frames = current :: rest ∧
    current.code.code[current.ip]? = some instruction ∧
    current.Provokes instruction machine.step.1.store crash

/-- A step that crashes executes an instruction that makes the machine go down. -/
theorem provokes_of_step (failed : machine.step = (final, .error fault))
    (isCrash : fault.cause = .crash crash) : machine.Provokes crash := by
  unfold Provokes
  rw [failed]
  unfold step at failed
  split at failed
  · split at failed
    · cases failed
    · cases failed
      cases isCrash
  · split at failed
    · cases failed
    · rename_i cause reached crashed
      cases failed
      dsimp only at isCrash
      subst isCrash
      rcases Exec.step_cases machine with executes | ⟨limit, spent⟩
      · obtain ⟨current, rest, instruction, frames, next, provokes⟩ :=
          Exec.crash_of_instructionStep (executes.symm.trans crashed)
        rw [frames_tidied] at frames
        exact ⟨current, rest, instruction, frames, next, provokes⟩
      · cases spent.symm.trans crashed

/-- The machines from which the steps of a run are taken. -/
def stages : (fuel : Nat) → Machine → List Machine
  | 0, _ => []
  | fuel + 1, machine =>
    machine :: match machine.step with
      | (next, .ok .running) => stages fuel next
      | _ => []

/-- A run that crashes does so in a step whose instruction makes the machine go down. -/
theorem exists_provoking_stage {fuel : Nat}
    (failed : finish fuel machine = (final, some (.error fault)))
    (isCrash : fault.cause = .crash crash) :
    ∃ stage ∈ machine.stages fuel, stage.step.2 = .error fault ∧ stage.Provokes crash := by
  induction fuel generalizing machine with
  | zero =>
      cases failed
  | succ fuel inductionHypothesis =>
      unfold finish at failed
      unfold stages
      generalize stepped : machine.step = outcome at failed ⊢
      obtain ⟨next, result⟩ := outcome
      cases result with
      | error found =>
          cases failed
          exact ⟨machine, List.mem_cons_self, congrArg Prod.snd stepped,
            provokes_of_step stepped isCrash⟩
      | ok state =>
          cases state with
          | finished value =>
              cases failed
          | running =>
              obtain ⟨stage, isStage, provokes⟩ := inductionHypothesis failed
              exact ⟨stage, List.mem_cons_of_mem _ isStage, provokes⟩

end Machine

end Missive
