import Missive.Proofs.Classes.Agreement

/-!
# Sessions and machines agree from fragment to fragment

The session of a machine records the shape of a class as soon as a fragment compiles, while the
class itself comes to be only when its definition is executed.  If every fragment that compiles gets
past its definitions, and none assigns to a global with the name of a class, then after each of them
every class that the session knows is bound to its name and has the fields that the session says.

A fragment that ends before one of its definitions leaves a shape behind that no class has.
-/

namespace Missive

/-! ## Shapes that stay -/

theorem Chained.isSome_shape? {session final : Session} {sources : List LoweredClass}
    (chained : Chained session sources final) :
    (∀ name, (session.shape? name).isSome = true → (final.shape? name).isSome = true) ∧
      ∀ source ∈ sources, (final.shape? source.name).isSome = true := by
  induction chained with
  | nil same =>
      refine ⟨fun name known => ?_, fun _ impossible => (List.not_mem_nil impossible).elim⟩
      rw [Session.shape?, same] at known
      exact known
  | @cons session source sources final isBefore _ inductionHypothesis =>
      obtain ⟨stays, defined⟩ := inductionHypothesis
      refine ⟨fun name known => stays name ?_, List.forall_mem_cons.mpr ⟨stays _ ?_, defined⟩⟩
      · rw [Session.shape?, isBefore] at known
        rw [source.shape?_after]
        split
        · rfl
        · exact known
      · rw [source.shape?_after_name]
        rfl

theorem Session.isSome_shape?_compile {session : Session} {program : Program} {name : String}
    (known : (session.shape? name).isSome = true) :
    ((session.compile program).1.shape? name).isSome = true := by
  cases compiled : session.compile program with
  | mk final result =>
      cases result with
      | ok unit =>
          obtain ⟨_, definedBy⟩ := Session.definedBy_compile compiled
          exact definedBy.chained.isSome_shape?.1 name known
      | error error =>
          rw [Session.eq_of_compile_error compiled]
          exact known

/-! ## Classes of any programs -/

/-- Any classes whose code assigns to no reserved name. -/
def Library.sparing (reserved : String → Prop) : Library where
  known source := ∀ classSide, ∀ method ∈ source.methodsOn classSide, method.body.Spares reserved
  reserved := reserved
  steady := False
  spares known _ _ isMethod := known _ _ isMethod
  isLeaf := False.elim

theorem Announces.eq_nil {pool : List Constant} {code : List Instruction}
    {sources : List LoweredClass} (announces : Announces pool code sources)
    (none : ∀ instruction ∈ code, instruction.opcode ≠ .defineClass) : sources = [] := by
  induction announces with
  | nil =>
      rfl
  | other _ _ inductionHypothesis =>
      exact inductionHypothesis (List.forall_mem_cons.mp none).2
  | define _ _ _ _ =>
      exact ((List.forall_mem_cons.mp none).1 rfl).elim

namespace Machine

variable {licence : Licence} {library : Library} {session final : Session}
  {sources : List LoweredClass} {machine before after reached : Machine}

/-! ## The session of a machine -/

theorem Move.session_eq (move : Move licence before after) : after.session = before.session := by
  cases move with
  | quiet quiet =>
      exact quiet.session
  | assign _ _ _ _ _ | store _ _ _ _ | push _ _ _ | drop _ _ | advance _ _ _ | jump _ _ _
  | makeBlock _ _ _ _ | makeClass _ _ _ _ _ _ | call _ _ _ _ _ _ | leave _ | launch _ _ =>
      rfl

theorem Moves.session_eq (moves : Moves licence before after) : after.session = before.session := by
  induction moves with
  | refl =>
      rfl
  | tail _ move inductionHypothesis =>
      exact move.session_eq.trans inductionHypothesis

/-- What runs does not change the session. -/
theorem session_finish (alike : machine.Alike machine) (bounded : machine.Bounded) (fuel : Nat) :
    (machine.finish fuel).1.session = machine.session := by
  induction fuel generalizing machine with
  | zero =>
      rfl
  | succ fuel inductionHypothesis =>
      have later := alike.step.2.1
      have moves := (moves_step alike bounded).1
      have boundedLater := moves.keep (fun move => move.bounded) bounded
      have sameSession := moves.session_eq
      unfold finish
      generalize machine.step = stepped at later boundedLater sameSession ⊢
      obtain ⟨next, outcome⟩ := stepped
      cases outcome with
      | error fault =>
          exact sameSession
      | ok state =>
          cases state with
          | running =>
              exact (inductionHypothesis later boundedLater).trans sameSession
          | finished value =>
              exact sameSession

/-! ## Past the definitions -/

/-- No activation has still to define a class. -/
def PastDefinitions (machine : Machine) : Prop :=
  ∀ frame ∈ machine.frames, ∀ instruction ∈ frame.code.code.toList.drop frame.ip,
    instruction.opcode ≠ .defineClass

/-- The code can be loaded into the session, and within the fuel it gets past all its
definitions.  What happens after that does not matter. -/
def DefinesAll (machine : Machine) (fuel : Nat) (unit : CodeUnit) : Prop :=
  match machine.loadInSession unit with
  | (_, .error _) => False
  | (loaded, .ok _) =>
    ∃ count ≤ fuel, (loaded.finish count).2 = none ∧ (loaded.finish count).1.PastDefinitions

instance : Decidable machine.PastDefinitions :=
  inferInstanceAs (Decidable (∀ frame ∈ machine.frames, _))

instance (fuel : Nat) (unit : CodeUnit) : Decidable (machine.DefinesAll fuel unit) :=
  match isLoaded : machine.loadInSession unit with
  | (_, .error _) => .isFalse (by simp [DefinesAll, isLoaded])
  | (loaded, .ok _) =>
    decidable_of_iff (∃ count ≤ fuel, (loaded.finish count).2 = none ∧
      (loaded.finish count).1.PastDefinitions) (by simp [DefinesAll, isLoaded])

theorem DefinesAll.of_ok {fuel : Nat} {unit : CodeUnit} (defines : machine.DefinesAll fuel unit) :
    ∃ loaded, machine.loadInSession unit = (loaded, .ok ()) ∧ ∃ count ≤ fuel, ∃ reached,
      loaded.finish count = (reached, none) ∧ reached.PastDefinitions := by
  unfold DefinesAll at defines
  split at defines
  · exact defines.elim
  · rename_i loaded _ isLoaded
    obtain ⟨count, enough, running, past⟩ := defines
    exact ⟨loaded, isLoaded, count, enough, _, Prod.ext rfl running, past⟩

theorem Agreed.eq_nil (agreed : machine.Agreed library session sources)
    (running : machine.frames ≠ []) (past : machine.PastDefinitions) : sources = [] := by
  have stacked := agreed.frames
  unfold PastDefinitions at past
  generalize machine.frames = frames at stacked running past
  induction stacked with
  | nil =>
      exact (running rfl).elim
  | program isProgram =>
      exact isProgram.ahead.eq_nil (past _ List.mem_cons_self)
  | above _ runningBelow _ inductionHypothesis =>
      exact inductionHypothesis runningBelow (List.forall_mem_cons.mp past).2

theorem Agreed.undefining (agreed : machine.Agreed library session []) :
    machine.Undefining := by
  intro current rest instruction frames next isDefinition
  have stacked := agreed.frames
  rw [frames] at stacked
  cases stacked with
  | program isProgram =>
      have ahead := isProgram.ahead
      rw [drop_eq_cons next] at ahead
      cases ahead with
      | other classless _ =>
          exact Instruction.not_define_of_isClassless classless isDefinition
  | above isWritten _ _ =>
      have member := List.mem_of_getElem? (Array.getElem?_toList.trans next)
      exact isWritten.not_define member isDefinition

/-- Past its definitions a program keeps the agreement to its end, also where it fails. -/
theorem Underway.agreed_finish (underway : machine.Underway library final session [])
    (fuel : Nat) : (machine.finish fuel).1.Agreed library session [] := by
  induction fuel generalizing machine with
  | zero =>
      exact underway.agreed
  | succ fuel inductionHypothesis =>
      have agreed := underway.agreed_step underway.agreed.undefining
      unfold Machine.finish
      cases stepped : machine.step with
      | mk next outcome =>
          rw [stepped] at agreed
          cases outcome with
          | error fault =>
              exact agreed
          | ok state =>
              cases state with
              | running =>
                  obtain ⟨ready, alike, bounded⟩ := underway.of_step stepped
                  exact inductionHypothesis
                    ⟨ready, alike, bounded, underway.known, underway.chained, agreed⟩
              | finished value =>
                  exact agreed

theorem finish_add {count more : Nat} (ran : machine.finish count = (reached, none)) :
    machine.finish (count + more) = reached.finish more := by
  induction count generalizing machine with
  | zero =>
      cases ran
      rw [Nat.zero_add]
  | succ count inductionHypothesis =>
      rw [Nat.succ_add]
      unfold finish at ran
      split at ran
      · rename_i next stepped
        rw [← inductionHypothesis ran, finish, stepped]
      · cases ran
      · cases ran

/-! ## One fragment -/

/-- A fragment whose classes are all defined takes the machine to where its session is. -/
theorem Underway.binds_finish (underway : machine.Underway library final session sources)
    {count fuel : Nat} (enough : count ≤ fuel) (ran : machine.finish count = (reached, none))
    (past : reached.PastDefinitions) :
    (machine.finish fuel).1.store.Sound library ∧
      (machine.finish fuel).1.globals.Binds library final (machine.finish fuel).1.store := by
  obtain ⟨later, remaining, underwayLater⟩ := underway.finish ran
  obtain ⟨current, _, _, poised⟩ := underwayLater.ready
  obtain ⟨rest, frames, _⟩ := poised.frames
  have running : reached.frames ≠ [] := by
    rw [frames]
    exact List.cons_ne_nil current rest
  obtain rfl := underwayLater.agreed.eq_nil running past
  have agreed := underwayLater.agreed_finish (fuel - count)
  rw [← finish_add ran, Nat.add_sub_cancel' enough] at agreed
  cases underwayLater.chained with
  | nil same =>
      exact ⟨agreed.sound, agreed.binds.congr same.symm⟩

section Evaluation

variable {fuel : Nat} {program : Program} {unit : CodeUnit} {loaded : Machine}

theorem eval_of_error {error : CompileError}
    (compiled : machine.session.compile program = (session, .error error)) :
    (machine.eval fuel program).1 = machine := by
  unfold Machine.eval
  rw [compiled]

theorem eval_of_ok (compiled : machine.session.compile program = (session, .ok unit))
    (isLoaded : loadInSession { machine with session } unit = (loaded, .ok ())) :
    (machine.eval fuel program).1 = (loaded.finish fuel).1 := by
  unfold Machine.eval runInSession
  rw [compiled]
  simp only [isLoaded, finishLoaded]

theorem eq_start_of_loadInSession (isLoaded : machine.loadInSession unit = (loaded, .ok ())) :
    loaded = machine.start unit machine.sessionContext := by
  unfold loadInSession at isLoaded
  split at isLoaded
  · cases isLoaded
  · cases isLoaded
    rfl

/-- The session after a call is the one that the fragment was compiled in. -/
theorem session_eval (settled : machine.Settled) :
    (machine.eval fuel program).1.session = (machine.session.compile program).1 := by
  cases compiled : machine.session.compile program with
  | mk session result =>
      cases result with
      | error error =>
          rw [eval_of_error compiled, Session.eq_of_compile_error compiled]
      | ok unit =>
          have alike := ((settled.alike.withSession session).loadInSession unit).2
          cases isLoaded : loadInSession { machine with session } unit with
          | mk loaded outcome =>
              rw [isLoaded] at alike
              cases outcome with
              | error fault =>
                  have same : loaded = { machine with session } := by
                    unfold loadInSession at isLoaded
                    split at isLoaded
                    · cases isLoaded
                      rfl
                    · cases isLoaded
                  unfold Machine.eval runInSession
                  rw [compiled]
                  simp only [isLoaded, finishLoaded, same]
              | ok _ =>
                  rw [eval_of_ok compiled isLoaded]
                  obtain rfl := eq_start_of_loadInSession isLoaded
                  exact session_finish alike (bounded_start _ unit _) fuel

/-- Each call keeps the agreement of session and machine. -/
theorem Idle.eval {reserved : String → Prop}
    (idle : machine.Idle (.sparing reserved) machine.session) (settled : machine.Settled)
    (small : program.collectionsFit = true)
    (spares : ∀ session unit, machine.session.compile program = (session, .ok unit) →
      unit.Spares reserved)
    (defines : ∀ session unit, machine.session.compile program = (session, .ok unit) →
      DefinesAll { machine with session } fuel unit)
    (known : ∀ name, ((machine.session.compile program).1.shape? name).isSome = true →
      reserved name) :
    (machine.eval fuel program).1.Idle (.sparing reserved)
      (machine.session.compile program).1 := by
  have kept := (settled.eval fuel small).1.kept
  cases compiled : machine.session.compile program with
  | mk session result =>
      cases result with
      | error error =>
          rw [eval_of_error compiled, Session.eq_of_compile_error compiled]
          exact idle
      | ok unit =>
          rw [compiled] at known
          have sparesUnit := spares session unit compiled
          obtain ⟨loaded, isLoaded, count, enough, reached, ran, past⟩ :=
            (defines session unit compiled).of_ok
          rw [eval_of_ok compiled isLoaded] at kept ⊢
          have alike := ((settled.alike.withSession session).loadInSession unit).2
          rw [isLoaded] at alike
          obtain rfl := eq_start_of_loadInSession isLoaded
          obtain ⟨sources, definedBy⟩ := Session.definedBy_compile compiled
          -- The machine has the session of the fragment already, but the classes of the one before.
          have starting : Idle (.sparing reserved) machine.session { machine with session } :=
            ⟨⟨idle.kept.heap, idle.kept.session⟩, idle.sound, idle.binds⟩
          have knownAll : ∀ source ∈ sources, (Library.sparing reserved).known source ∧
              reserved source.name := by
            intro source member
            refine ⟨fun classSide method isMethod => ?_, ?_⟩
            · exact definedBy.spares_method sparesUnit member isMethod
            · exact known source.name (definedBy.chained.isSome_shape?.2 source member)
          have underway := starting.start small compiled definedBy sparesUnit knownAll
            idle.kept.session alike
          obtain ⟨sound, binds⟩ := underway.binds_finish enough ran past
          exact ⟨kept, sound, binds⟩

end Evaluation

/-! ## Fragments one after the other -/

/-- The machine after programs that are evaluated one after the other, each with its fuel. -/
def evalAll (machine : Machine) : List (Nat × Program) → Machine
  | [] => machine
  | (fuel, program) :: rest => (machine.eval fuel program).1.evalAll rest

/-- The condition holds of the code of every fragment that compiles, in the machine that it starts
in, with its fuel. -/
def EachFragment (condition : Machine → Nat → CodeUnit → Prop) (machine : Machine) :
    List (Nat × Program) → Prop
  | [] => True
  | (fuel, program) :: rest =>
    (match machine.session.compile program with
      | (_, .error _) => True
      | (session, .ok unit) => condition { machine with session } fuel unit) ∧
    (machine.eval fuel program).1.EachFragment condition rest

instance decidableEachFragment (condition : Machine → Nat → CodeUnit → Prop)
    [∀ machine fuel unit, Decidable (condition machine fuel unit)] (machine : Machine) :
    (programs : List (Nat × Program)) → Decidable (machine.EachFragment condition programs)
  | [] => inferInstanceAs (Decidable True)
  | (fuel, program) :: rest =>
    have : Decidable (match machine.session.compile program with
        | (_, .error _) => True
        | (session, .ok unit) => condition { machine with session } fuel unit) :=
      match machine.session.compile program with
      | (_, .error _) => inferInstanceAs (Decidable True)
      | (session, .ok unit) =>
        inferInstanceAs (Decidable (condition { machine with session } fuel unit))
    have := decidableEachFragment condition (machine.eval fuel program).1 rest
    inferInstanceAs (Decidable (_ ∧ _))

theorem EachFragment.of_cons {condition : Machine → Nat → CodeUnit → Prop} {fuel : Nat}
    {program : Program} {rest : List (Nat × Program)}
    (each : machine.EachFragment condition ((fuel, program) :: rest)) :
    (∀ session unit, machine.session.compile program = (session, .ok unit) →
      condition { machine with session } fuel unit) ∧
    (machine.eval fuel program).1.EachFragment condition rest := by
  obtain ⟨first, others⟩ := each
  refine ⟨fun session unit compiled => ?_, others⟩
  rw [compiled] at first
  exact first

theorem isSome_shape?_evalAll {programs : List (Nat × Program)} (settled : machine.Settled)
    (small : ∀ entry ∈ programs, entry.2.collectionsFit = true) {name : String}
    (known : (machine.session.shape? name).isSome = true) :
    ((machine.evalAll programs).session.shape? name).isSome = true := by
  induction programs generalizing machine with
  | nil =>
      exact known
  | cons entry rest inductionHypothesis =>
      obtain ⟨fuel, program⟩ := entry
      obtain ⟨smallProgram, smallRest⟩ := List.forall_mem_cons.mp small
      refine inductionHypothesis (settled.eval fuel smallProgram).1 smallRest ?_
      rw [session_eval settled]
      exact Session.isSome_shape?_compile known

theorem Idle.evalAll {reserved : String → Prop} {programs : List (Nat × Program)}
    (idle : machine.Idle (.sparing reserved) machine.session) (settled : machine.Settled)
    (small : ∀ entry ∈ programs, entry.2.collectionsFit = true)
    (spares : machine.EachFragment (fun _ _ unit => unit.Spares reserved) programs)
    (defines : machine.EachFragment DefinesAll programs)
    (known : ∀ name, ((machine.evalAll programs).session.shape? name).isSome = true →
      reserved name) :
    (machine.evalAll programs).Idle (.sparing reserved) (machine.evalAll programs).session ∧
      (machine.evalAll programs).Settled := by
  induction programs generalizing machine with
  | nil =>
      exact ⟨idle, settled⟩
  | cons entry rest inductionHypothesis =>
      obtain ⟨fuel, program⟩ := entry
      obtain ⟨smallProgram, smallRest⟩ := List.forall_mem_cons.mp small
      obtain ⟨sparesFirst, sparesRest⟩ := spares.of_cons
      obtain ⟨definesFirst, definesRest⟩ := defines.of_cons
      have settledNext := (settled.eval fuel smallProgram).1
      have knownNext : ∀ name, ((machine.session.compile program).1.shape? name).isSome = true →
          reserved name := by
        intro name isKnown
        rw [← session_eval settled] at isKnown
        exact known name (isSome_shape?_evalAll settledNext smallRest isKnown)
      have idleNext := idle.eval settled smallProgram sparesFirst definesFirst knownNext
      rw [← session_eval settled] at idleNext
      exact inductionHypothesis idleNext settledNext smallRest sparesRest definesRest known

/-- The class that the session knows under the name is there, with the fields that it says. -/
theorem Idle.layout (idle : machine.Idle library session) (alike : machine.Alike machine)
    {name : String} {shape : Shape} (known : session.shape? name = some shape) :
    ∃ id definition, machine.globals.get? name = some (.ref id) ∧
      machine.store.class? id = some definition ∧ definition.fields = shape.fields := by
  obtain ⟨_, id, source, isGlobal, _, presents, builds⟩ := idle.binds name shape known
  obtain ⟨link, _, machines⟩ := alike
  have held := Link.knows_ref.mp (Exec.knows_global machines isGlobal)
  obtain ⟨definition, isClass⟩ := builds.exists_class? machines.stores held
  refine ⟨id, definition, isGlobal, isClass, ?_⟩
  rw [(builds.of_class? isClass).1.fields, presents.fields shape known]

/-- Evaluate programs one after the other on a new machine.  If none assigns to a global with the
name of a class that the session knows in the end, and each that compiles gets past its definitions
before it ends, in whichever way, then every class that the session knows is bound to its name and
has the fields that the session says. -/
theorem session_layouts_hold (config : Config) (refusal : Option String)
    (programs : List (Nat × Program)) (last : Machine)
    (isLast : (new config refusal).evalAll programs = last)
    (small : ∀ entry ∈ programs, entry.2.collectionsFit = true)
    (spares : (new config refusal).EachFragment (fun _ _ unit =>
      ∀ name ∈ unit.storedGlobals, ¬ (last.session.shape? name).isSome = true) programs)
    (defines : (new config refusal).EachFragment DefinesAll programs) :
    ∀ name shape, last.session.shape? name = some shape →
      ∃ id definition, last.globals.get? name = some (.ref id) ∧
        last.store.class? id = some definition ∧ definition.fields = shape.fields := by
  subst isLast
  -- A name that is known after some call is known in the end, so it is reserved from the start.
  let reserved : String → Prop := fun name =>
    (((new config refusal).evalAll programs).session.shape? name).isSome = true
  have settled := settled_new config refusal
  have reservedRoot : reserved rootClassName := isSome_shape?_evalAll settled small rfl
  have knownRoot : (Library.sparing reserved).known .root := fun _ _ isMethod =>
    (LoweredClass.not_mem_methodsOn_root isMethod).elim
  have idle : (new config refusal).Idle (.sparing reserved) (new config refusal).session :=
    idle_new knownRoot reservedRoot config refusal
  obtain ⟨idleLast, settledLast⟩ :=
    idle.evalAll settled small spares defines fun _ isKnown => isKnown
  intro name shape known
  exact idleLast.layout settledLast.alike known

/-- Fragments that define a class, define it again and fail after that, do not compile, and define a
class below it. -/
def redefinitions : List (Nat × Program) :=
  [(9, [.define ⟨"A", some "Object", ["x", "u"], [], [⟨"u", [], [.return (.var "u")]⟩], []⟩]),
    (9, [.expr (.assign "n" (.literal (.int 1))), .define ⟨"A", some "Object", ["p"], [], [], []⟩,
      .expr (.var "missing")]),
    (9, [.define ⟨"A", some "Missing", [], [], [], []⟩]),
    (9, [.define ⟨"B", some "A", ["w"], [], [], []⟩])]

/-- The last class has the field of the second definition of its superclass. -/
theorem session_layouts_hold_redefinitions :
    let last := (new {} none).evalAll redefinitions
    last.session.shape? "B" = some ⟨some "A", ["p", "w"], []⟩ ∧
      ∃ id definition, last.globals.get? "B" = some (.ref id) ∧
        last.store.class? id = some definition ∧ definition.fields = ["p", "w"] := by
  have known : ((new {} none).evalAll redefinitions).session.shape? "B" =
      some ⟨some "A", ["p", "w"], []⟩ := by
    decide +kernel
  exact ⟨known, session_layouts_hold {} none redefinitions _ rfl (by decide +kernel)
    (by decide +kernel) (by decide +kernel) "B" _ known⟩

-- The second fragment answers before its definition, which the session counts on all the same.
example :
    let first := ((new {} none).eval 9 [.define ⟨"A", some "Object", ["x", "u"], [], [], []⟩]).1
    let second := (first.eval 9
      [.return (.literal (.int 1)), .define ⟨"A", some "Object", ["p"], [], [], []⟩]).1
    let last := (second.eval 9 [.define ⟨"B", some "A", ["w"], [], [], []⟩]).1
    (last.session.shape? "B").map Shape.fields = some ["p", "w"] ∧
      ((last.globals.class? last.store "B").bind last.store.class?).map ClassObject.fields =
        some ["x", "u", "w"] := by
  decide +kernel

end Machine

end Missive
