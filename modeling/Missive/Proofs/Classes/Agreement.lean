import Missive.Proofs.Classes.Library
import Missive.Proofs.Safety.Evaluation
import Missive.Proofs.Steps.Returns

/-!
# Sessions and machines agree

While a program runs, the classes that the session knew at the same point of the program are bound
to their names, and each has the layout that the session says.  A plain move of the machine keeps
this, because it creates no class and assigns to no reserved name.  The step that defines a class
takes machine and session on together.

At the bottom of the activations is the program with the classes that it has still to define.  All
other activations run code of methods and blocks, which define no classes.
-/

namespace Missive

/-! ## Classes that are held -/

/-- A class that the machine holds on to is there. -/
theorem Store.Builds.exists_class? {store : Store} {library : Library} {link : Link}
    {id : ObjectId} {source : LoweredClass} (builds : store.Builds library id source)
    (stores : link.Stores store store) (held : link.Has id) :
    ∃ definition, store.class? id = some definition := by
  obtain ⟨_, _, found, _⟩ := stores.get held
  cases builds with
  | gone _ isGone =>
      rw [found] at isGone
      cases isGone
  | top isClass _ _ _ | derived isClass _ _ _ _ _ _ _ =>
      exact ⟨_, isClass⟩

/-! ## Activations -/

/-- The activation of a program that has still to define the classes. -/
structure Frame.IsProgram (library : Library) (sources : List LoweredClass) (frame : Frame) :
    Prop where
  owner : frame.owner = none
  spares : frame.code.Spares library.reserved
  blocks : ∀ body, .block body ∈ frame.code.constants →
    ∃ session statements, Body session none statements body
  instructions : ∀ instruction ∈ frame.code.code.toList,
    instruction.isClassless = true ∨ instruction.opcode = .defineClass
  ahead : Announces frame.code.constants (frame.code.code.toList.drop frame.ip) sources

/-- The activation runs the code of a method or of a block. -/
def Frame.IsWritten (library : Library) (store : Store) (frame : Frame) : Prop :=
  Written library store frame.receiver frame.owner frame.classSide frame.code

/-- Activations of methods and blocks above that of a program. -/
inductive Stacked (library : Library) (store : Store) (sources : List LoweredClass) :
    List Frame → Prop
  | nil : Stacked library store sources []
  | program {frame : Frame} : frame.IsProgram library sources →
      Stacked library store sources [frame]
  | above {frame : Frame} {rest : List Frame} : frame.IsWritten library store → rest ≠ [] →
      Stacked library store sources rest → Stacked library store sources (frame :: rest)

namespace Stacked

variable {library : Library} {store newer : Store} {sources : List LoweredClass}
  {frames : List Frame}

theorem preserves (stacked : Stacked library store sources frames)
    (preserves : store.Preserves newer) : Stacked library newer sources frames := by
  induction stacked with
  | nil =>
      exact .nil
  | program isProgram =>
      exact .program isProgram
  | above isWritten running _ inductionHypothesis =>
      exact .above (isWritten.preserves preserves) running inductionHypothesis

theorem suffix (stacked : Stacked library store sources frames) {lower : List Frame}
    (isSuffix : lower <:+ frames) : Stacked library store sources lower := by
  induction stacked with
  | nil =>
      rw [List.suffix_nil.mp isSuffix]
      exact .nil
  | program isProgram =>
      rcases List.suffix_cons_iff.mp isSuffix with rfl | isSuffix
      · exact .program isProgram
      · rw [List.suffix_nil.mp isSuffix]
        exact .nil
  | above isWritten running stacked inductionHypothesis =>
      rcases List.suffix_cons_iff.mp isSuffix with rfl | isSuffix
      · exact .above isWritten running stacked
      · exact inductionHypothesis isSuffix

/-- The innermost activation goes on with the same code. -/
theorem replace {current changed : Frame} {rest : List Frame}
    (stacked : Stacked library store sources (current :: rest)) (code : changed.code = current.code)
    (receiver : changed.receiver = current.receiver) (owner : changed.owner = current.owner)
    (classSide : changed.classSide = current.classSide)
    (ahead : current.IsProgram library sources →
      Announces current.code.constants (current.code.code.toList.drop changed.ip) sources) :
    Stacked library store sources (changed :: rest) := by
  cases stacked with
  | program isProgram =>
      refine .program ⟨owner.trans isProgram.owner, ?_, ?_, ?_, ?_⟩
      · exact code ▸ isProgram.spares
      · exact code ▸ isProgram.blocks
      · exact code ▸ isProgram.instructions
      · exact code ▸ ahead isProgram
  | above isWritten running lower =>
      refine .above ?_ running lower
      unfold Frame.IsWritten
      rw [code, receiver, owner, classSide]
      exact isWritten

theorem spares {current : Frame} {rest : List Frame}
    (stacked : Stacked library store sources (current :: rest)) :
    current.code.Spares library.reserved := by
  cases stacked with
  | program isProgram =>
      exact isProgram.spares
  | above isWritten _ _ =>
      exact isWritten.spares

theorem not_target {current : Frame} {rest : List Frame}
    (stacked : Stacked library store sources (current :: rest)) {instruction : Instruction}
    (member : instruction ∈ current.code.code.toList) :
    instruction.opcode.operandKind ≠ .target := by
  intro isTarget
  cases stacked with
  | program isProgram =>
      rcases isProgram.instructions instruction member with classless | isDefinition
      · unfold Instruction.isClassless at classless
        cases opcode : instruction.opcode <;> simp_all [Opcode.operandKind]
      · rw [isDefinition] at isTarget
        cases isTarget
  | above isWritten _ _ =>
      obtain ⟨_, _, _, isBody⟩ := isWritten.exists_body
      have straight := isBody.isStraight instruction member
      unfold Instruction.isStraight at straight
      rw [isTarget] at straight
      cases straight

/-- A block in the running code may run with the receiver and the class of the activation. -/
theorem block {current : Frame} {rest : List Frame}
    (stacked : Stacked library store sources (current :: rest)) {body : CodeUnit}
    (member : .block body ∈ current.code.constants) :
    Written library store current.receiver current.owner current.classSide body := by
  cases stacked with
  | program isProgram =>
      obtain ⟨session, statements, isBody⟩ := isProgram.blocks body member
      rw [isProgram.owner]
      exact .program isBody (isProgram.spares.block member)
  | above isWritten _ _ =>
      exact isWritten.block member

end Stacked

/-! ## Moves -/

namespace Machine

/-- The classes of the session are bound in the machine, which has still to define others. -/
structure Agreed (library : Library) (session : Session) (sources : List LoweredClass)
    (machine : Machine) : Prop where
  sound : machine.store.Sound library
  binds : machine.globals.Binds library session machine.store
  frames : Stacked library machine.store sources machine.frames

variable {library : Library} {session : Session} {sources : List LoweredClass}
  {machine before after : Machine}

/-- A method or a block that is called may run. -/
theorem Runs.isWritten {frame : Frame} {outer : Option ContextId} {arguments : Nat}
    (runs : machine.Runs .plain frame arguments outer)
    (agreed : machine.Agreed library session sources) :
    frame.IsWritten library machine.store := by
  unfold Frame.IsWritten
  cases runs with
  | block found _ code shares _ =>
      cases agreed.sound.objects found with
      | plain impossible =>
          cases impossible
      | block written =>
          rw [code, ← shares.receiver, ← shares.owner, ← shares.classSide]
          exact written
  | @method start owner selector definition method seeks found isOwner _ code _ _ _ =>
      rw [isOwner, code]
      apply agreed.sound.written_of_lookup found
      intro onInstances first source isFirst builds
      generalize frame.classSide = classSide at seeks onInstances
      cases seeks with
      | @record id _ values seen =>
          obtain ⟨isRef, isRecord⟩ := Store.of_see_record seen
          refine ⟨id, isRef, Store.index_lt_of_get? isRecord, fun object isObject => ?_⟩
          rw [isRecord] at isObject
          cases isObject
          exact ⟨start, values, source, rfl, builds, List.prefix_refl _⟩
      | classObject _ =>
          cases onInstances
      | @above current rest id _ lower frames isCurrent isLower isSuperclass sameReceiver =>
          have stacked := agreed.frames
          rw [frames] at stacked
          cases stacked with
          | program isProgram =>
              rw [isProgram.owner] at isCurrent
              cases isCurrent
          | above isWritten _ _ =>
              -- A message to `super` keeps the receiver, an instance of a class further down.
              unfold Frame.IsWritten at isWritten
              rw [isCurrent, onInstances] at isWritten
              cases isWritten with
              | method methodCode _ =>
                  rw [sameReceiver not_false]
                  apply (methodCode.isInstance rfl).higher
                  rw [← (builds.of_class? isFirst).1.fields,
                    ← (methodCode.builds.of_class? isLower).1.fields]
                  exact agreed.sound.fields_of_superclass isLower isSuperclass isFirst

/-- A plain move keeps the agreement. -/
theorem Move.agreed (move : Move .plain before after)
    (agreed : before.Agreed library session sources) :
    after.Agreed library session sources := by
  have sound := agreed.sound
  have binds := agreed.binds
  have stacked := agreed.frames
  cases move with
  | quiet quiet =>
      have preserves := quiet.inherits.preserves
      refine ⟨sound.inherits quiet.inherits, ?_, ?_⟩
      · rw [quiet.globals]
        exact binds.preserves preserves
      · rw [quiet.frames]
        exact stacked.preserves preserves
  | store _ _ _ _ =>
      exact ⟨sound, binds, stacked⟩
  | assign value frames member isStore selects =>
      rw [frames] at stacked
      exact ⟨sound, binds.assign (stacked.spares.not_reserved member isStore selects) value,
        agreed.frames⟩
  | push value frames _ | drop count frames =>
      rw [frames] at stacked
      exact ⟨sound, binds, stacked.replace rfl rfl rfl rfl fun isProgram => isProgram.ahead⟩
  | @advance current rest instruction frames next notDefinition =>
      rw [frames] at stacked
      refine ⟨sound, binds, stacked.replace rfl rfl rfl rfl fun isProgram => ?_⟩
      have ahead := isProgram.ahead
      rw [drop_eq_cons next] at ahead
      cases ahead with
      | other _ later =>
          exact later
      | define _ _ _ =>
          exact (notDefinition not_false rfl).elim
  | jump frames member isTarget =>
      rw [frames] at stacked
      exact (stacked.not_target member isTarget).elim
  | @makeBlock current rest closure _ frames member shares =>
      have preserves := before.store.preserves_alloc (.block closure)
      refine ⟨sound.alloc trivial (.block ?_), binds.preserves preserves,
        stacked.preserves preserves⟩
      rw [frames] at stacked
      rw [shares.receiver, shares.owner, shares.classSide]
      exact (stacked.block member).preserves preserves
  | makeClass _ _ allowed _ _ _ =>
      exact allowed.elim
  | call _ hasRoom _ _ runs _ =>
      exact ⟨sound, binds, .above (runs.isWritten agreed) hasRoom.running stacked⟩
  | leave isSuffix =>
      exact ⟨sound, binds, stacked.suffix isSuffix⟩
  | launch _ ground =>
      rcases ground.allowed with impossible | impossible
      · exact impossible.elim
      · exact impossible.elim

theorem Moves.agreed (moves : Moves .plain before after)
    (agreed : before.Agreed library session sources) : after.Agreed library session sources :=
  moves.keep (fun move => move.agreed) agreed

end Machine

/-! ## The definition of a class -/

namespace Exec

variable {machine reached : Machine} {current : Frame} {rest : List Frame}

theorem superclassOf_ok {descriptor : ClassDescriptor} {superclass : Option ObjectId}
    (answered : superclassOf descriptor machine = .ok superclass reached) :
    machine = reached ∧ machine.globals.Superclass machine.store descriptor superclass := by
  unfold superclassOf at answered
  cases isNamed : descriptor.superclass with
  | none =>
      simp only [isNamed] at answered
      cases answered
      exact ⟨rfl, .top isNamed⟩
  | some name =>
      simp only [isNamed] at answered
      rw [get_bind] at answered
      cases found : machine.globals.class? machine.store name with
      | none =>
          rw [found] at answered
          cases answered
      | some parent =>
          rw [found] at answered
          cases answered
          exact ⟨rfl, .named isNamed found⟩

/-- A class is created and bound; then only its value goes on the stack. -/
theorem defineClass_ok {index : Nat} {descriptor : ClassDescriptor}
    (frames : machine.frames = current :: rest) (small : index ≤ Instruction.maxPackedIndex)
    (found : current.code.constants[index]? = some (.classDescriptor descriptor))
    (answered : defineClass (.indexed .defineClass index) machine = .ok () reached) :
    ∃ superclass, machine.globals.Superclass machine.store descriptor superclass ∧
      Machine.Moves .plain
        { machine with
          store := (machine.store.newClass descriptor superclass).2
          globals := machine.globals.set descriptor.name
            (.ref (machine.store.newClass descriptor superclass).1) } reached := by
  have fits : index < 0x80000000 := Nat.lt_of_le_of_lt small (by decide)
  have selects : constantAt? (operandIndex? (Instruction.indexed .defineClass index).operand)
      machine = .ok (some (.classDescriptor descriptor)) machine := by
    rw [show (Instruction.indexed .defineClass index).operand = Int32.ofNat index from rfl,
      operandIndex?_ofNat fits]
    unfold constantAt?
    rw [bind_of_ok (frame_of_cons frames), Option.bind_some, found]
    rfl
  unfold defineClass at answered
  rw [bind_of_ok selects] at answered
  obtain ⟨superclass, between, searched, created⟩ := bind_eq_ok.mp answered
  obtain ⟨rfl, isSuperclass⟩ := superclassOf_ok searched
  refine ⟨superclass, isSuperclass, ?_⟩
  have pushed : pushTracked (.ref (machine.store.newClass descriptor superclass).1)
      { machine with
        store := (machine.store.newClass descriptor superclass).2
        globals := machine.globals.set descriptor.name
          (.ref (machine.store.newClass descriptor superclass).1) } = .ok () reached := created
  have proceeds : ∀ start value, Proceeds .plain start (pushTracked value) (fun _ => True) anyEnd :=
    fun _ _ => proceeds_pushTracked _
  exact ((proceeds _ _).of_ok pushed).1

/-- A step that does not fail has been counted, and then its instruction was executed. -/
theorem execute_of_step_ok {instruction : Instruction} {state : StepState}
    (frames : machine.frames = current :: rest)
    (next : current.code.code[current.ip]? = some instruction)
    (answered : step machine = .ok state reached) :
    execute instruction
      { ({ machine with steps := machine.steps + 1 } : Machine).tidied with
        frames := { current with ip := current.ip + 1 } :: rest } = .ok state reached := by
  rw [step_eq] at answered
  obtain ⟨_, counted, isCounted, answered⟩ := bind_eq_ok.mp answered
  have proceeds : Proceeds .plain machine countStep (fun _ => True) _ := proceeds_countStep
  obtain rfl := (proceeds.of_ok isCounted).2
  rw [bind_of_ok (Machine.collectIfNeeded_eq _)] at answered
  rw [← answered]
  refine (instructionStep_of_some ?_ next).symm
  rw [Machine.frames_tidied]
  exact frames

end Exec

namespace Machine

variable {library : Library} {session final : Session} {source : LoweredClass}
  {sources : List LoweredClass} {machine reached : Machine}

theorem moves_counted_tidied (machine : Machine) :
    machine.Moves .plain ({ machine with steps := machine.steps + 1 } : Machine).tidied :=
  .single (.quiet machine.quiet_counted_tidied)

theorem execute_defineClass_of_step {current : Frame} {rest : List Frame} {index : Nat}
    {state : StepState} (frames : machine.frames = current :: rest)
    (next : current.code.code[current.ip]? = some (.indexed .defineClass index))
    (stepped : machine.step = (reached, .ok state)) :
    Exec.defineClass (.indexed .defineClass index)
      { ({ machine with steps := machine.steps + 1 } : Machine).tidied with
        frames := { current with ip := current.ip + 1 } :: rest } = .ok () reached := by
  unfold Machine.step at stepped
  rw [frames, List.isEmpty_cons] at stepped
  cases ran : Exec.step machine with
  | error cause failed =>
      rw [ran] at stepped
      cases stepped
  | ok answer ended =>
      rw [ran] at stepped
      cases stepped
      have executed := Exec.execute_of_step_ok frames next ran
      obtain ⟨_, between, defined, answered⟩ := Exec.bind_eq_ok.mp executed
      cases answered
      exact defined

/-- The step that defines a class takes the machine to where the session is. -/
theorem Agreed.define {current : Frame} {rest : List Frame} {instruction : Instruction}
    {state : StepState} (agreed : machine.Agreed library session sources)
    (frames : machine.frames = current :: rest)
    (next : current.code.code[current.ip]? = some instruction)
    (isDefinition : instruction.opcode = .defineClass)
    (known : ∀ source ∈ sources, library.known source ∧ library.reserved source.name)
    (chained : Chained session sources final)
    (stepped : machine.step = (reached, .ok state)) :
    ∃ source later, sources = source :: later ∧ Chained source.after later final ∧
      reached.Agreed library source.after later := by
  have stacked := agreed.frames
  rw [frames] at stacked
  cases stacked with
  | above isWritten _ _ =>
      have member := List.mem_of_getElem? (Array.getElem?_toList.trans next)
      exact (isWritten.not_define member isDefinition).elim
  | program isProgram =>
      have ahead := isProgram.ahead
      rw [drop_eq_cons next] at ahead
      cases ahead with
      | other classless _ =>
          exact (Instruction.not_define_of_isClassless classless isDefinition).elim
      | @define index _ source later small found announced =>
          cases chained with
          | cons isBefore chainedLater =>
              refine ⟨source, later, rfl, chainedLater, ?_⟩
              obtain ⟨isKnown, isReserved⟩ := known source List.mem_cons_self
              -- The step may collect first, which takes away no class that the session knows.
              have tidied := (moves_counted_tidied machine).agreed agreed
              have executed := execute_defineClass_of_step frames next stepped
              have foundAfter :
                  ({ current with ip := current.ip + 1 } : Frame).code.constants[index]? =
                    some (.classDescriptor source.descriptor) := found
              obtain ⟨superclass, isSuperclass, moves⟩ :=
                Exec.defineClass_ok rfl small foundAfter executed
              have binds := tidied.binds.congr isBefore.symm
              obtain ⟨sound, bindsAfter⟩ :=
                sound_newClass tidied.sound binds isKnown isReserved isSuperclass
              refine moves.agreed ⟨sound, ?_, .program ?_⟩
              · rw [source.descriptor_name]
                exact bindsAfter
              · exact ⟨isProgram.owner, isProgram.spares, isProgram.blocks,
                  isProgram.instructions, announced⟩

end Machine

/-! ## Runs -/

/-- What a message to `super` needs, as far as it can be told from the code. -/
theorem Fits.superSend_cases {setting : Setting} {pool : List Constant} {instruction : Instruction}
    {before after : Layout} (fits : Fits setting pool instruction before after)
    (isSuper : instruction.opcode = .superSend) :
    ∃ (index : Nat) (selector : Selector) (arguments further : Layout),
      instruction = .packed .superSend index arguments.length ∧
      before = arguments ++ true :: further ∧ setting.side.isSome = true ∧
      index ≤ Instruction.maxPackedIndex ∧ arguments.length ≤ Instruction.maxPackedCount ∧
      pool[index]? = some (.string selector) ∧ selector.arity = arguments.length := by
  cases fits with
  | superSend inClass small isName few arity =>
      exact ⟨_, _, _, _, rfl, rfl, inClass, small, few, isName, arity⟩
  | slot moves | outer moves _ _ | field moves _ | classVar moves _ _ _ | global moves _ _ =>
      cases moves <;> cases isSuper
  | pushSimple isSimple =>
      rcases isSimple with rfl | rfl | rfl <;> cases isSuper
  | pushConstant _ _ _ | pushSelf | pop | dup | send _ _ _ _ | defineClass _ _ | makeClosure _ _ _
  | makeArray _ _ | makeDictionary _ _ | «return» | nonLocalReturn =>
      cases isSuper

/-- Where a message goes to `super`, the receiver lies below the arguments. -/
theorem Fits.receiver_of_superSend {setting : Setting} {pool : List Constant}
    {instruction : Instruction} {before after : Layout}
    (fits : Fits setting pool instruction before after)
    (isSuper : instruction.opcode = .superSend) :
    before[(Instruction.unpack instruction.operand).2]? = some true := by
  obtain ⟨index, _, arguments, _, rfl, rfl, _, _, few, _⟩ := fits.superSend_cases isSuper
  have isCount : (Instruction.unpack
      (Instruction.packed .superSend index arguments.length).operand).2 = arguments.length :=
    Instruction.unpack_packedOperand_count index few
  rw [isCount, List.getElem?_append_right (Nat.le_refl _), Nat.sub_self]
  rfl

namespace Machine

variable {library : Library} {session final : Session} {sources : List LoweredClass}
  {machine reached : Machine}

/-- The next instruction defines no class. -/
def Undefining (machine : Machine) : Prop :=
  ∀ current rest instruction, machine.frames = current :: rest →
    current.code.code[current.ip]? = some instruction → instruction.opcode ≠ .defineClass

theorem Ready.plain (ready : machine.Ready) (undefining : machine.Undefining) :
    machine.Plain := by
  intro current rest instruction frames next
  refine ⟨undefining current rest instruction frames next, fun isSuper => ?_⟩
  obtain ⟨setting, layout, poised⟩ := ready.poised frames
  obtain ⟨_, fits, _⟩ := poised.current.flows.next next
  have isTrue := fits.receiver_of_superSend isSuper
  obtain ⟨inside, atPlace⟩ := List.getElem?_eq_some_iff.mp isTrue
  obtain ⟨sameLength, related⟩ := List.forall₂_iff_get.mp poised.current.stack
  have insideStack : (Instruction.unpack instruction.operand).2 < current.stack.length :=
    sameLength ▸ inside
  rw [List.getElem?_eq_getElem insideStack]
  exact congrArg some (related _ inside insideStack atPlace)

/-- A program that is under way, up to the last session. -/
structure Underway (library : Library) (final session : Session) (sources : List LoweredClass)
    (machine : Machine) : Prop where
  ready : machine.Ready
  alike : machine.Alike machine
  bounded : machine.Bounded
  known : ∀ source ∈ sources, library.known source ∧ library.reserved source.name
  chained : Chained session sources final
  agreed : machine.Agreed library session sources

/-- A step that defines no class keeps the agreement, also where it fails. -/
theorem Underway.agreed_step (underway : machine.Underway library final session sources)
    (undefining : machine.Undefining) : machine.step.1.Agreed library session sources := by
  have obeys : machine.Obeys .plain := (underway.ready.plain undefining).obeys
  exact (moves_step_of underway.alike underway.bounded obeys).1.agreed underway.agreed

theorem Underway.of_step (underway : machine.Underway library final session sources)
    (stepped : machine.step = (reached, .ok .running)) :
    reached.Ready ∧ reached.Alike reached ∧ reached.Bounded := by
  have ready := (step_of_ready underway.ready underway.alike).1 .running
  have alike := underway.alike.step.2.1
  have moves := (moves_step underway.alike underway.bounded).1
  rw [stepped] at ready alike moves
  exact ⟨ready rfl, alike, moves.keep (fun move => move.bounded) underway.bounded⟩

/-- Step by step, the machine does what the session foresees. -/
theorem Underway.step (underway : machine.Underway library final session sources)
    (stepped : machine.step = (reached, .ok .running)) :
    ∃ later remaining, reached.Underway library final later remaining := by
  obtain ⟨ready, alike, bounded⟩ := underway.of_step stepped
  by_cases undefining : machine.Undefining
  · have agreed := underway.agreed_step undefining
    rw [stepped] at agreed
    exact ⟨session, sources, ready, alike, bounded, underway.known, underway.chained, agreed⟩
  -- Only a definition takes the session on.
  · unfold Undefining at undefining
    push Not at undefining
    obtain ⟨current, rest, instruction, frames, next, isDefinition⟩ := undefining
    obtain ⟨source, later, rfl, chained, agreed⟩ := underway.agreed.define frames next isDefinition
      underway.known underway.chained stepped
    exact ⟨source.after, later, ready, alike, bounded,
      (List.forall_mem_cons.mp underway.known).2, chained, agreed⟩

theorem Underway.finish (underway : machine.Underway library final session sources) {count : Nat}
    (ran : machine.finish count = (reached, none)) :
    ∃ later remaining, reached.Underway library final later remaining := by
  induction count generalizing machine session sources with
  | zero =>
      cases ran
      exact ⟨session, sources, underway⟩
  | succ count inductionHypothesis =>
      unfold Machine.finish at ran
      split at ran
      · rename_i next stepped
        obtain ⟨later, remaining, underwayNext⟩ := underway.step stepped
        exact inductionHypothesis underwayNext ran
      · cases ran
      · cases ran

/-! ## The start of a program -/

theorem builds_new (config : Config) (refusal : Option String) :
    (new config refusal).store.Builds library ⟨0⟩ .root :=
  Store.builds_of_class? (Store.class?_of_get? (Store.get?_alloc_new Store.empty _))
    builtFrom_root (.top rfl)

theorem sound_new (knownRoot : library.known .root) (config : Config) (refusal : Option String) :
    (new config refusal).store.Sound library := by
  have emptySound : Store.empty.Sound library := ⟨fun _ _ _ => nofun, nofun⟩
  exact emptySound.alloc trivial (.classObject knownRoot (builds_new config refusal))

theorem binds_new (knownRoot : library.known .root)
    (reservedRoot : library.reserved rootClassName) (config : Config) (refusal : Option String) :
    (new config refusal).globals.Binds library .initial (new config refusal).store := by
  have nothing : Globals.empty.Binds library LoweredClass.root.before (new config refusal).store :=
    fun _ _ => nofun
  exact nothing.define reservedRoot knownRoot (builds_new config refusal)

/-- What holds of a machine between two programs, the classes included. -/
structure Idle (library : Library) (session : Session) (machine : Machine) : Prop where
  kept : machine.Kept
  sound : machine.store.Sound library
  binds : machine.globals.Binds library session machine.store

theorem idle_new (knownRoot : library.known .root) (reservedRoot : library.reserved rootClassName)
    (config : Config) (refusal : Option String) :
    (new config refusal).Idle library .initial :=
  ⟨(settled_new config refusal).kept, sound_new knownRoot config refusal,
    binds_new knownRoot reservedRoot config refusal⟩

theorem stacked_start {program : Program} {unit : CodeUnit} {store : Store} {frame : Frame}
    (definedBy : DefinedBy program session final .empty unit sources)
    (spares : unit.Spares library.reserved) (code : frame.code = unit) (atStart : frame.ip = 0)
    (noOwner : frame.owner = none) : Stacked library store sources [frame] := by
  subst code
  refine .program ⟨noOwner, spares, fun body member => ?_, ?_, ?_⟩
  · cases definedBy.ofProgram _ member with
    | scalar impossible =>
        cases impossible
    | block isBody =>
        exact ⟨_, _, isBody⟩
  · exact definedBy.announces.classless_or_define
  · rw [atStart]
    exact definedBy.announces

theorem bounded_start (machine : Machine) (unit : CodeUnit) (context : ContextId) :
    (machine.start unit context).Bounded :=
  (bounded_cons rfl).mpr ⟨Nat.zero_le _, by simp⟩

theorem Idle.start {program : Program} {unit : CodeUnit} {context : ContextId}
    (idle : machine.Idle library session) (small : program.collectionsFit = true)
    (compiled : session.compile program = (final, .ok unit))
    (definedBy : DefinedBy program session final .empty unit sources)
    (spares : unit.Spares library.reserved)
    (known : ∀ source ∈ sources, library.known source ∧ library.reserved source.name)
    (issued : machine.contexts.Issued context)
    (alike : (machine.start unit context).Alike (machine.start unit context)) :
    (machine.start unit context).Underway library final session sources where
  ready := ready_start_in idle.kept issued (Session.safe_compile small compiled)
  alike := alike
  bounded := bounded_start machine unit context
  known := known
  chained := definedBy.chained
  agreed := ⟨idle.sound, idle.binds, stacked_start definedBy spares rfl rfl rfl⟩

end Machine

end Missive
