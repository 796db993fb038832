import Missive.Proofs.Scopes.Assignments
import Missive.Proofs.Scopes.Ownership
import Missive.Proofs.Scopes.Rendering

/-!
# Where blocks come from

A block is created by an activation, and when it is called it becomes an activation of its own,
maybe long after the first one has ended.  The *lineage* of an activation is the activation that
created its block, the one that created the block of that one, and so on to a method or a program.

The code of the activations in a lineage was compiled from passages that stand inside each other.
Their contexts are inside each other in the same way, as long as they have not been freed, and each
of them began with the arguments of its activation.
-/

namespace Missive

/-! ## Contexts inside each other -/

namespace Arena

/-- Each context is around the one before it, as far as they have not been freed. -/
def Threads (arena : Arena) : List ContextId → Prop
  | [] => True
  | id :: around => arena.Issued id ∧
    (∀ context, arena.get? id = some context → context.outer = around.head?) ∧
      arena.Threads around

/-- The handle was given for the context, which has not changed as long as it is there. -/
def Holds (arena : Arena) (id : ContextId) (context : Context) : Prop :=
  arena.Issued id ∧ ∀ found, arena.get? id = some found → found = context

variable {arena older newer : Arena} {ids : List ContextId}

theorem Holds.retains {id : ContextId} {context : Context} (holds : older.Holds id context)
    (retains : older.Retains newer) : newer.Holds id context := by
  obtain ⟨issued, isContext⟩ := holds
  exact ⟨retains.issued issued, fun found present => isContext found (retains.same issued present)⟩

theorem holds_alloc (wellFormed : WellFormed arena) (context : Context) :
    (arena.alloc context).2.Holds (arena.alloc context).1 context := by
  refine ⟨issued_alloc wellFormed _, fun found present => ?_⟩
  rw [get?_alloc_self wellFormed] at present
  exact (Option.some.inj present).symm

theorem Threads.keeps (threads : older.Threads ids) (keeps : older.Keeps newer) :
    newer.Threads ids := by
  induction ids with
  | nil =>
      trivial
  | cons id around inductionHypothesis =>
      obtain ⟨issued, isOuter, further⟩ := threads
      refine ⟨keeps.issued issued, fun context found => ?_, inductionHypothesis further⟩
      obtain ⟨before, foundBefore, sameOuter⟩ := keeps.outer issued found
      rw [← sameOuter]
      exact isOuter before foundBefore

theorem Threads.issued (threads : arena.Threads ids) : ∀ id ∈ ids, arena.Issued id := by
  induction ids with
  | nil =>
      exact fun _ impossible => (List.not_mem_nil impossible).elim
  | cons id around inductionHypothesis =>
      exact List.forall_mem_cons.mpr ⟨threads.1, inductionHypothesis threads.2.2⟩

/-- A context inside those that are there. -/
theorem Holds.threads {id : ContextId} {locals : Array Value}
    (holds : arena.Holds id ⟨locals, ids.head?⟩) (threads : arena.Threads ids) :
    arena.Threads (id :: ids) := by
  refine ⟨holds.1, fun context found => ?_, threads⟩
  rw [holds.2 context found]

end Arena

/-! ## The lineage of an activation -/

namespace Machine

/-- Among the commands is one that lets the machine take a step. -/
def Steps (start : Machine) (commands : List Command) (machine : Machine) : Prop :=
  ∃ earlier later, commands = earlier ++ .step :: later ∧ machine = start.after earlier

/-- In the next step, the activation creates the block. -/
structure Creates (machine : Machine) (maker : Frame) (id : ObjectId) (closure : Closure) :
    Prop where
  executes : ∃ current rest instruction, machine.frames = current :: rest ∧
    current.fixed = maker ∧ current.code.code[current.ip]? = some instruction ∧
    instruction.opcode = .makeClosure
  isNew : machine.store.get? id = none
  created : machine.step.1.store.get? id = some (.block closure)

/-- In the next step, the block is called and becomes the activation. -/
structure Calls (machine : Machine) (id : ObjectId) (closure : Closure) (activation : Frame) :
    Prop where
  stored : machine.store.get? id = some (.block closure)
  isNew : machine.lastFrame < activation.id.number
  entered : activation ∈ machine.step.1.activations
  kind : activation.kind = .block
  code : activation.code = closure.body
  shares : closure.Shares activation
  around : ∃ context, machine.step.1.contexts.get? activation.context = some context ∧
    context.outer = some closure.outer

/-- Each activation runs a block that the next one has created, and the last one is a method or a
program. -/
inductive Lineage (start : Machine) (commands : List Command) : List Frame → Prop
  | outermost {activation : Frame} : activation.kind ≠ .block →
      Lineage start commands [activation]
  | inside {activation maker : Frame} {others : List Frame} {creating calling : Machine}
      {id : ObjectId} {closure : Closure} :
      start.Steps commands creating → creating.Creates maker id closure →
      start.Steps commands calling → calling.Calls id closure activation →
      Lineage start commands (maker :: others) →
      Lineage start commands (activation :: maker :: others)

end Machine

/-- The activations run the code of passages that stand inside each other. -/
inductive Enacts (corpus : Corpus) : List Frame → List Passage → Prop
  | nil : Enacts corpus [] []
  | cons {activation : Frame} {passage : Passage} {others : List Frame} {outer : List Passage} :
      activation.kind = passage.kind → Rendition corpus passage outer activation.code →
      Enacts corpus others outer → Enacts corpus (activation :: others) (passage :: outer)

theorem Enacts.rendition {corpus : Corpus} {activation : Frame} {others : List Frame}
    {passages : List Passage} (enacts : Enacts corpus (activation :: others) passages) :
    ∃ passage outer, passages = passage :: outer ∧
      Rendition corpus passage outer activation.code := by
  cases enacts with
  | cons _ rendition _ =>
      exact ⟨_, _, rfl, rendition⟩

/-- All units that the commands load were compiled from programs in the corpus. -/
def Corpus.Compiles (corpus : Corpus) (commands : List Command) : Prop :=
  ∀ unit, .load unit ∈ commands ∨ .loadInSession unit ∈ commands →
    ∃ (session final : Session) (program : Program),
      session.compile program = (final, .ok unit) ∧
        ∀ passage ∈ program.passages session, corpus.contains passage

/-! ## Code and passages -/

/-- A way to take code for that of passages.  The blocks and the methods in the code can then be
taken for that of further passages, which have the parameters that a call asks for. -/
structure Reading where
  reads : Passage → List Passage → CodeUnit → Prop
  block {passage : Passage} {outer : List Passage} {unit body : CodeUnit} {ip : Nat}
    {instruction : Instruction} : reads passage outer unit → unit.code[ip]? = some instruction →
    instruction.opcode = .makeClosure →
    Instruction.packedSelected unit.constants instruction.operand = some (.block body) →
    ∃ inner : Passage, inner.kind = .block ∧
      inner.given.length = (Instruction.unpack instruction.operand).2 ∧
      reads inner (passage :: outer) body
  method {passage : Passage} {outer : List Passage} {unit : CodeUnit}
    {descriptor : ClassDescriptor} {method : MethodDescriptor} : reads passage outer unit →
    .classDescriptor descriptor ∈ unit.constants →
    method ∈ descriptor.methods ++ descriptor.classMethods →
    ∃ inner : Passage, inner.kind = .method ∧
      inner.given.length = Selector.arity method.selector ∧ reads inner [] method.body

namespace Reading

/-- The code that was compiled from the passages of a corpus. -/
def ofCorpus (corpus : Corpus) : Reading where
  reads := Rendition corpus
  block rendition next isClosure selects := by
    obtain ⟨parameters, statements, inner, _, count⟩ := rendition.block next isClosure selects
    exact ⟨_, rfl, count.symm, inner⟩
  method rendition member isMethod := by
    obtain ⟨⟨statements, inner⟩, arity⟩ := rendition.method member isMethod
    exact ⟨_, rfl, arity, inner⟩

/-- Any code, taken for that of passages that say nothing. -/
def blank : Reading where
  reads _ _ _ := True
  block _ _ _ _ := ⟨⟨.block, List.replicate _ "", []⟩, rfl, List.length_replicate, trivial⟩
  method _ _ _ := ⟨⟨.method, List.replicate _ "", []⟩, rfl, List.length_replicate, trivial⟩

/-- The code of the activations is that of passages that stand inside each other. -/
inductive Covers (reading : Reading) : List Frame → List Passage → Prop
  | nil : Covers reading [] []
  | cons {activation : Frame} {passage : Passage} {others : List Frame} {outer : List Passage} :
      activation.kind = passage.kind → reading.reads passage outer activation.code →
      Covers reading others outer → Covers reading (activation :: others) (passage :: outer)

theorem Covers.head {reading : Reading} {activation : Frame} {others : List Frame}
    {passages : List Passage} (covers : reading.Covers (activation :: others) passages) :
    ∃ passage outer, passages = passage :: outer ∧ reading.reads passage outer activation.code := by
  cases covers with
  | cons _ reads _ =>
      exact ⟨_, _, rfl, reads⟩

theorem Covers.enacts {corpus : Corpus} {activations : List Frame} {passages : List Passage}
    (covers : (ofCorpus corpus).Covers activations passages) :
    Enacts corpus activations passages := by
  induction covers with
  | nil =>
      exact .nil
  | cons sameKind rendition _ inductionHypothesis =>
      exact .cons sameKind rendition inductionHypothesis

/-- All units that the commands load can be taken for programs. -/
def Loads (reading : Reading) (commands : List Command) : Prop :=
  ∀ unit, .load unit ∈ commands ∨ .loadInSession unit ∈ commands →
    ∃ passage : Passage, passage.kind = .topLevel ∧ reading.reads passage [] unit

theorem loads_ofCorpus {corpus : Corpus} {commands : List Command}
    (compiles : corpus.Compiles commands) : (ofCorpus corpus).Loads commands := by
  intro unit loaded
  obtain ⟨session, final, program, compiled, contains⟩ := compiles unit loaded
  exact ⟨_, rfl, rendition_program compiled contains⟩

theorem loads_blank (commands : List Command) : blank.Loads commands :=
  fun _ _ => ⟨⟨.topLevel, [], []⟩, rfl, trivial⟩

end Reading

namespace Machine

variable {reading : Reading} {start machine : Machine} {commands : List Command}

theorem Steps.append (steps : start.Steps commands machine) (more : List Command) :
    start.Steps (commands ++ more) machine := by
  obtain ⟨earlier, later, rfl, isMachine⟩ := steps
  exact ⟨earlier, later ++ more, by simp, isMachine⟩

theorem Lineage.append {activations : List Frame} (lineage : Lineage start commands activations)
    (more : List Command) : Lineage start (commands ++ more) activations := by
  induction lineage with
  | outermost notBlock =>
      exact .outermost notBlock
  | inside creating creates calling calls _ inductionHypothesis =>
      exact .inside (creating.append more) creates (calling.append more) calls inductionHypothesis

/-! ## The beginning of an activation -/

/-- In the next step, the activation begins, and its context holds the arguments. -/
structure Starts (machine : Machine) (activation : Frame) (arguments : Array Value) : Prop where
  isNew : machine.lastFrame < activation.id.number
  entered : activation ∈ machine.step.1.activations
  holds : ∃ outer, machine.step.1.contexts.get? activation.context = some ⟨arguments, outer⟩

/-- While the commands are carried out, the activation begins with so many arguments, unless it is a
program. -/
def Started (start : Machine) (commands : List Command) (activation : Frame) (count : Nat) : Prop :=
  activation.kind ≠ .topLevel → ∃ earlier later arguments, commands = earlier ++ .step :: later ∧
    (start.after earlier).Starts activation arguments ∧ arguments.size = count

theorem Started.append {activation : Frame} {count : Nat}
    (started : start.Started commands activation count) (more : List Command) :
    start.Started (commands ++ more) activation count := by
  intro notProgram
  obtain ⟨earlier, later, arguments, rfl, starts⟩ := started notProgram
  exact ⟨earlier, later ++ more, arguments, by simp, starts⟩

/-! ## Activations and blocks with their lineage -/

/-- The lineage of an activation with the passages and the contexts that belong to it. -/
structure Descends (reading : Reading) (start : Machine) (commands : List Command) (arena : Arena)
    (activations : List Frame) (passages : List Passage) : Prop where
  lineage : Lineage start commands activations
  covers : reading.Covers activations passages
  threads : arena.Threads (activations.map Frame.context)
  started : List.Forall₂ (fun activation passage =>
    start.Started commands activation passage.given.length) activations passages

theorem Descends.later {older newer : Arena} {activations : List Frame} {passages : List Passage}
    (descends : Descends reading start commands older activations passages)
    (keeps : older.Keeps newer) (more : List Command) :
    Descends reading start (commands ++ more) newer activations passages :=
  ⟨descends.lineage.append more, descends.covers, descends.threads.keeps keeps,
    descends.started.imp fun _ _ started => started.append more⟩

theorem Descends.started_getElem? {arena : Arena} {activations : List Frame}
    {passages : List Passage} {depth : Nat} {activation : Frame} {passage : Passage}
    (descends : Descends reading start commands arena activations passages)
    (isActivation : activations[depth]? = some activation)
    (isPassage : passages[depth]? = some passage) :
    start.Started commands activation passage.given.length := by
  obtain ⟨inside, rfl⟩ := List.getElem?_eq_some_iff.mp isActivation
  obtain ⟨insideToo, rfl⟩ := List.getElem?_eq_some_iff.mp isPassage
  exact descends.started.get inside insideToo

/-- A block that some activation has created. -/
inductive Born (reading : Reading) (start : Machine) (commands : List Command) (arena : Arena)
    (id : ObjectId) (closure : Closure) : Prop
  | of {creating : Machine} {maker : Frame} {others : List Frame} {passage : Passage}
      {outer : List Passage} :
      start.Steps commands creating → creating.Creates maker id closure →
      Descends reading start commands arena (maker :: others) outer →
      closure.outer = maker.context → passage.kind = .block →
      passage.given.length = closure.parameterCount → reading.reads passage outer closure.body →
      Born reading start commands arena id closure

theorem Born.later {older newer : Arena} {id : ObjectId} {closure : Closure}
    (born : Born reading start commands older id closure) (keeps : older.Keeps newer)
    (more : List Command) : Born reading start (commands ++ more) newer id closure := by
  cases born with
  | of creating creates descends isOuter isBlock count reads =>
      exact .of (creating.append more) creates (descends.later keeps more) isOuter isBlock count
        reads

end Machine

/-! ## Methods -/

/-- The methods of a class stand inside of nothing. -/
def Object.Sourced (reading : Reading) : Object → Prop
  | .classObject definition => ∀ method ∈ definition.methods ++ definition.classMethods,
    ∃ passage : Passage, passage.kind = .method ∧
      passage.given.length = Selector.arity method.selector ∧ reading.reads passage [] method.body
  | .array _ | .dictionary _ | .record .. | .block _ => True

theorem Object.sourced_of_isPlain {reading : Reading} {object : Object}
    (plain : object.isPlain = true) : object.Sourced reading := by
  cases object with
  | array _ | dictionary _ | record _ _ =>
      exact trivial
  | block _ | classObject _ =>
      cases plain

theorem Object.sourced_cleared_iff {reading : Reading} {object : Object} :
    object.cleared.Sourced reading ↔ object.Sourced reading := by
  cases object <;> exact Iff.rfl

/-- The methods of all classes stand inside of nothing. -/
def Store.Sourced (reading : Reading) (store : Store) : Prop :=
  ∀ id object, store.get? id = some object → object.Sourced reading

namespace Store.Sourced

variable {reading : Reading} {store : Store}

theorem alloc (sourced : store.Sourced reading) {object : Object}
    (isSourced : object.Sourced reading) : (store.alloc object).2.Sourced reading := by
  intro id found present
  rcases get?_alloc_cases present with rfl | was
  · exact isSourced
  · exact sourced id found was

theorem allocBlock (sourced : store.Sourced reading) (closure : Closure) :
    (store.alloc (.block closure)).2.Sourced reading :=
  sourced.alloc trivial

theorem inherits {newer : Store} (sourced : store.Sourced reading)
    (inherits : store.Inherits newer) : newer.Sourced reading := by
  intro id object found
  rcases inherits.origin id object found with ⟨before, was, same⟩ | ⟨_, plain⟩
  · have isSourced := sourced id before was
    rwa [← Object.sourced_cleared_iff, ← same, Object.sourced_cleared_iff] at isSourced
  · exact Object.sourced_of_isPlain plain

end Store.Sourced

/-- A block that is there without a new one having come was there before. -/
theorem Store.Inherits.block {older newer : Store} (inherits : older.Inherits newer)
    {id : ObjectId} {closure : Closure} (found : newer.get? id = some (.block closure)) :
    older.get? id = some (.block closure) := by
  rcases inherits.origin id _ found with ⟨object, was, same⟩ | ⟨_, plain⟩
  · rwa [Object.eq_block_of_cleared same.symm] at was
  · cases plain

namespace Machine

/-! ## Everything has a lineage -/

/-- The machine has come to where it is by the commands, and every activation and every block has a
lineage. -/
structure Traceable (reading : Reading) (start : Machine) (commands : List Command)
    (machine : Machine) : Prop where
  wellFormed : machine.contexts.WellFormed
  session : machine.contexts.Threads [machine.sessionContext]
  activations : ∀ activation ∈ machine.activations, ∃ others passages,
    Descends reading start commands machine.contexts (activation :: others) passages
  blocks : ∀ id closure, machine.store.get? id = some (.block closure) →
    Born reading start commands machine.contexts id closure
  methods : machine.store.Sourced reading

variable {reading : Reading} {start machine before after : Machine} {commands : List Command}

/-- Nothing has come that needs a lineage. -/
theorem Traceable.later (traceable : Traceable reading start commands machine) (next : Machine)
    (keeps : machine.contexts.Keeps next.contexts) (wellFormed : next.contexts.WellFormed)
    (sameSession : next.sessionContext = machine.sessionContext)
    (sameActivations : next.activations = machine.activations)
    (inherits : machine.store.Inherits next.store) (more : List Command) :
    Traceable reading start (commands ++ more) next := by
  refine ⟨wellFormed, ?_, ?_, fun id closure found => ?_, traceable.methods.inherits inherits⟩
  · rw [sameSession]
    exact traceable.session.keeps keeps
  · rw [sameActivations]
    intro activation member
    obtain ⟨others, passages, descends⟩ := traceable.activations activation member
    exact ⟨others, passages, descends.later keeps more⟩
  · exact (traceable.blocks id closure (inherits.block found)).later keeps more

theorem Traceable.quiet (traceable : Traceable reading start commands machine)
    (quiet : Quiet machine after) (more : List Command) :
    Traceable reading start (commands ++ more) after :=
  traceable.later _ quiet.contexts.keeps (quiet.wellFormed traceable.wellFormed)
    quiet.sessionContext (congrArg (List.map Frame.fixed) quiet.frames) quiet.inherits more

/-! ### Steps that neither create a block nor assign a variable -/

/-- An activation that has begun since, in a method or in a block that was there.  Its context is as
it was at the beginning. -/
inductive Begins (reading : Reading) (before : Machine) (arena : Arena) (activation : Frame) : Prop
  | method {passage : Passage} {arguments : Array Value} :
      before.lastFrame < activation.id.number → activation.kind = .method →
      passage.kind = .method → passage.given.length = arguments.size →
      reading.reads passage [] activation.code →
      arena.Holds activation.context ⟨arguments, none⟩ → Begins reading before arena activation
  | block {id : ObjectId} {closure : Closure} {arguments : Array Value} :
      before.lastFrame < activation.id.number → activation.kind = .block →
      before.store.get? id = some (.block closure) → closure.parameterCount = arguments.size →
      activation.code = closure.body → closure.Shares activation →
      arena.Holds activation.context ⟨arguments, some closure.outer⟩ →
      Begins reading before arena activation

theorem Begins.retains {older newer : Arena} {activation : Frame}
    (begins : Begins reading before older activation) (retains : older.Retains newer) :
    Begins reading before newer activation := by
  cases begins with
  | method isNew isMethod kind count reads holds =>
      exact .method isNew isMethod kind count reads (holds.retains retains)
  | block isNew isBlock stored count isCode shares holds =>
      exact .block isNew isBlock stored count isCode shares (holds.retains retains)

/-- How far moves can lead that neither create a block nor assign a variable. -/
structure Progress (reading : Reading) (before after : Machine) : Prop where
  wellFormed : after.contexts.WellFormed
  retains : before.contexts.Retains after.contexts
  sessionContext : after.sessionContext = before.sessionContext
  issued : before.lastFrame ≤ after.lastFrame
  blocks : ∀ id closure, after.store.get? id = some (.block closure) →
    before.store.get? id = some (.block closure)
  methods : after.store.Sourced reading
  activations : ∀ activation ∈ after.activations,
    activation ∈ before.activations ∨ Begins reading before after.contexts activation

/-- All code can be taken for that of passages. -/
theorem Progress.reads (progress : Progress reading before after)
    (traceable : Traceable reading start commands before) {activation : Frame}
    (member : activation ∈ after.activations) :
    ∃ passage outer, reading.reads passage outer activation.code := by
  rcases progress.activations activation member with was | begins
  · obtain ⟨_, _, descends⟩ := traceable.activations activation was
    obtain ⟨passage, outer, _, reads⟩ := descends.covers.head
    exact ⟨passage, outer, reads⟩
  · cases begins with
    | method _ _ _ _ reads _ =>
        exact ⟨_, _, reads⟩
    | block _ _ stored _ isCode _ _ =>
        cases traceable.blocks _ _ stored with
        | of _ _ _ _ _ _ reads =>
            exact ⟨_, _, isCode ▸ reads⟩

theorem Progress.store {middle : Machine} (progress : Progress reading before middle)
    (move : Move .blockless middle after) (traceable : Traceable reading start commands before) :
    (∀ id closure, after.store.get? id = some (.block closure) →
      before.store.get? id = some (.block closure)) ∧ after.store.Sourced reading := by
  cases move with
  | quiet quiet =>
      exact ⟨fun id closure found => progress.blocks id closure (quiet.inherits.block found),
        progress.methods.inherits quiet.inherits⟩
  | makeBlock impossible _ _ _ =>
      exact impossible.elim
  | @makeClass current rest descriptor superclass globals _ frames member _ =>
      have innermost := fixed_mem_activations frames
      obtain ⟨passage, outer, reads⟩ := progress.reads traceable innermost
      refine ⟨fun id closure found => ?_, progress.methods.alloc ?_⟩
      · rcases Store.get?_alloc_cases found with new | was
        · cases new
        · exact progress.blocks id closure was
      · exact fun method isMethod => reading.method reads member isMethod
  | assign _ _ _ _ _ | store _ _ _ _ | push _ _ _ | drop _ _ | advance _ _ _ | jump _ _ _
  | call _ _ _ _ _ _ | leave _ | launch _ _ =>
      exact ⟨progress.blocks, progress.methods⟩

theorem Progress.move {middle : Machine} (progress : Progress reading before middle)
    (move : Move .blockless middle after) (traceable : Traceable reading start commands before) :
    Progress reading before after := by
  obtain ⟨retains, wellFormed⟩ := move.retains id progress.wellFormed
  obtain ⟨blocks, methods⟩ := progress.store move traceable
  refine ⟨wellFormed, progress.retains.trans retains,
    move.sessionContext.trans progress.sessionContext,
    Nat.le_trans progress.issued move.turn.continues.issued, blocks, methods, ?_⟩
  have kept : ∀ activation ∈ middle.activations,
      activation ∈ before.activations ∨ Begins reading before after.contexts activation :=
    fun activation member =>
      (progress.activations activation member).imp id fun begins => begins.retains retains
  cases move.turn with
  | keep _ suffix =>
      exact fun activation member => kept activation (suffix.mem member)
  | @enter frame outer locals _ atStart runs isContext contexts _ entered =>
      rw [entered, List.forall_mem_cons]
      refine ⟨Or.inr ?_, kept⟩
      have holds : after.contexts.Holds frame.context ⟨locals, outer⟩ := by
        rw [isContext, contexts]
        exact Arena.holds_alloc progress.wellFormed _
      have isNew : before.lastFrame < frame.id.number := by
        rw [atStart.id]
        exact Nat.lt_succ_of_le progress.issued
      cases runs with
      | @method _ owner _ definition method _ found _ isMethod isCode _ _ arity =>
          obtain ⟨isClass, isFound⟩ := Store.method?_of_lookup found
          obtain ⟨passage, kind, count, reads⟩ := progress.methods owner _
            (Store.get?_of_class? isClass) method (ClassObject.mem_of_method? isFound)
          rw [ClassObject.selector_of_method? isFound, arity] at count
          rw [← isCode] at reads
          exact .method isNew isMethod kind count reads holds
      | @block id closure found isBlock isCode shares count =>
          exact .block isNew isBlock (progress.blocks id closure found) count isCode
            ⟨shares.home, shares.receiver, shares.owner, shares.classSide⟩ holds
  | begin ground _ _ _ _ _ _ _ =>
      rcases ground.allowed with impossible | impossible
      · exact impossible.elim
      · exact impossible.elim

theorem Traceable.progress (traceable : Traceable reading start commands before)
    (moves : Moves .blockless before after) : Progress reading before after :=
  moves.keep (fun move progress => progress.move move traceable)
    ⟨traceable.wellFormed, .refl _, rfl, Nat.le_refl _, fun _ _ found => found, traceable.methods,
      fun _ member => Or.inl member⟩

/-- The context of an activation has not been freed. -/
theorem Alike.live_context (alike : machine.Alike machine) {activation : Frame}
    (member : activation ∈ machine.activations) :
    ∃ context, machine.contexts.get? activation.context = some context := by
  obtain ⟨link, _, machines⟩ := alike
  obtain ⟨frame, isFrame, rfl⟩ := List.mem_map.mp member
  obtain ⟨partner, linked⟩ := exists_partner machines.frames isFrame
  obtain ⟨context, _, found, _⟩ := machines.arenas.linked linked.context
  exact ⟨context, found⟩

/-- An activation that begins in a step gets a lineage. -/
theorem Traceable.descends (traceable : Traceable reading start commands machine)
    (isMachine : machine = start.after commands)
    (retains : machine.contexts.Retains machine.step.1.contexts)
    (alike : machine.step.1.Alike machine.step.1) {activation : Frame}
    (member : activation ∈ machine.step.1.activations)
    (begins : Begins reading machine machine.step.1.contexts activation) :
    ∃ others passages, Descends reading start (commands ++ [.step]) machine.step.1.contexts
      (activation :: others) passages := by
  have calling : start.Steps (commands ++ [.step]) machine := ⟨commands, [], rfl, isMachine⟩
  obtain ⟨context, found⟩ := alike.live_context member
  have starts : ∀ {arguments : Array Value} {outer : Option ContextId},
      machine.lastFrame < activation.id.number →
      machine.step.1.contexts.Holds activation.context ⟨arguments, outer⟩ →
      start.Started (commands ++ [.step]) activation arguments.size := by
    intro arguments outer isNew holds notProgram
    refine ⟨commands, [], arguments, rfl, isMachine ▸ ⟨isNew, member, outer, ?_⟩, rfl⟩
    rw [found, holds.2 context found]
  cases begins with
  | method isNew isMethod kind count reads holds =>
      have outermost : machine.step.1.contexts.Threads [] := trivial
      exact ⟨[], _, .outermost (by rw [isMethod]; decide),
        .cons (isMethod.trans kind.symm) reads .nil, holds.threads outermost,
        .cons (count ▸ starts isNew holds) .nil⟩
  | @block id closure arguments isNew isBlock stored count isCode shares holds =>
      cases traceable.blocks id closure stored with
      | @of creating maker others passage outer creates isCreated descends isOuter kind parameters
          reads =>
          have calls : machine.Calls id closure activation :=
            ⟨stored, isNew, member, isBlock, isCode, shares, context, found,
              congrArg Context.outer (holds.2 context found)⟩
          have further := descends.later retains.keeps [.step]
          rw [← isCode] at reads
          rw [isOuter] at holds
          have size : passage.given.length = arguments.size := parameters.trans count
          exact ⟨maker :: others, passage :: outer,
            .inside (creates.append _) isCreated calling calls further.lineage,
            .cons (isBlock.trans kind.symm) reads further.covers, holds.threads further.threads,
            .cons (size ▸ starts isNew holds) further.started⟩

/-- A step that neither creates a block nor assigns a variable. -/
theorem Traceable.blockless (traceable : Traceable reading start commands machine)
    (isMachine : machine = start.after commands)
    (progress : Progress reading machine machine.step.1)
    (alike : machine.step.1.Alike machine.step.1) :
    Traceable reading start (commands ++ [.step]) machine.step.1 := by
  have keeps := progress.retains.keeps
  refine ⟨progress.wellFormed, ?_, fun activation member => ?_, fun id closure found => ?_,
    progress.methods⟩
  · rw [progress.sessionContext]
    exact traceable.session.keeps keeps
  · rcases progress.activations activation member with was | begins
    · obtain ⟨others, passages, descends⟩ := traceable.activations activation was
      exact ⟨others, passages, descends.later keeps _⟩
    · exact traceable.descends isMachine progress.retains alike member begins
  · exact (traceable.blocks id closure (progress.blocks id closure found)).later keeps _

variable {current : Frame} {rest : List Frame} {instruction : Instruction}

theorem activations_prepared (frames : machine.frames = current :: rest) :
    (Exec.prepared machine current rest).activations = machine.activations := by
  unfold Machine.activations
  rw [frames]
  rfl

/-- Before an instruction is executed, nothing comes that needs a lineage. -/
theorem Traceable.prepared (traceable : Traceable reading start commands machine)
    (frames : machine.frames = current :: rest) (more : List Command) :
    Traceable reading start (commands ++ more) (Exec.prepared machine current rest) := by
  have quiet := machine.quiet_counted_tidied
  exact traceable.later (Exec.prepared machine current rest) quiet.contexts.keeps
    (quiet.wellFormed traceable.wellFormed) quiet.sessionContext (activations_prepared frames)
    quiet.inherits more

/-- A step that assigns a variable. -/
theorem Traceable.assigning (traceable : Traceable reading start commands machine)
    (alike : machine.Alike machine) (bounded : machine.Bounded)
    (frames : machine.frames = current :: rest)
    (next : current.code.code[current.ip]? = some instruction)
    (assigns : instruction.assigns = true) :
    Traceable reading start (commands ++ [.step]) machine.step.1 := by
  obtain ⟨keeps, wellFormed⟩ := (moves_step alike bounded).1.contexts traceable.wellFormed
  have quiet := machine.quiet_counted_tidied
  rcases step_of_assigns frames next assigns with ⟨spent, _⟩ | stepped
  · rw [spent]
    exact traceable.quiet (.counted machine) _
  · refine traceable.later _ keeps wellFormed ?_ ?_ ?_ _
    · rw [stepped]
      exact quiet.sessionContext
    · rw [stepped]
      exact activations_prepared frames
    · rw [stepped]
      exact quiet.inherits

end Machine

/-! ### Steps that create a block -/

/-- The block that an activation creates. -/
def Frame.closure (frame : Frame) (body : CodeUnit) (parameterCount : Nat) : Closure :=
  { body, parameterCount, outer := frame.context, receiver := frame.receiver
    owner := frame.owner, classSide := frame.classSide, home := frame.home
    origin := Exec.origin frame }

namespace Exec

theorem reached_andGoOn (effect : Exec Unit) (machine : Machine) :
    reached (andGoOn effect machine) = reached (effect machine) := by
  have opened : andGoOn effect machine = EStateM.bind effect (fun _ => pure .running) machine := rfl
  rw [opened]
  unfold EStateM.bind
  cases effect machine <;> rfl

variable {machine : Machine} {current : Frame} {rest : List Frame}

theorem reached_pushTracked (value : Value) (frames : machine.frames = current :: rest) :
    ∃ operands, reached (pushTracked value machine) =
      { machine with
        store := machine.store.track value
        frames := { current with stack := operands } :: rest } := by
  let tracked : Machine := { machine with store := machine.store.track value }
  have trackedFrames : tracked.frames = current :: rest := frames
  have pushed : pushTracked value machine = push value tracked := rfl
  by_cases room : current.stack.length < tracked.config.maxStackDepth
  · refine ⟨value :: current.stack, ?_⟩
    rw [pushed, push_of_cons trackedFrames room]
    rfl
  · refine ⟨current.stack, ?_⟩
    rw [pushed, push_of_full trackedFrames (Nat.le_of_not_lt room)]
    change tracked = { tracked with frames := current :: rest }
    rw [← trackedFrames]

/-- A block is created from a unit in the pool, or the attempt leaves everything as it was. -/
theorem reached_makeClosure (instruction : Instruction)
    (frames : machine.frames = current :: rest) :
    reached (makeClosure instruction machine) = machine ∨
      ∃ body operands, Instruction.packedSelected current.code.constants instruction.operand =
          some (.block body) ∧
        let created := machine.store.alloc
          (.block (current.closure body (Instruction.unpack instruction.operand).2))
        reached (makeClosure instruction machine) =
          { machine with
            store := created.2.track (.ref created.1)
            frames := { current with stack := operands } :: rest } := by
  have selected : constantAt? (some (Instruction.unpack instruction.operand).1) machine =
      .ok (Instruction.packedSelected current.code.constants instruction.operand) machine := by
    unfold constantAt?
    rw [bind_of_ok (frame_of_cons frames)]
    rfl
  unfold makeClosure
  dsimp only
  rw [bind_of_ok selected]
  cases found : Instruction.packedSelected current.code.constants instruction.operand with
  | none =>
      exact Or.inl rfl
  | some constant =>
      cases constant with
      | block body =>
          refine Or.inr ⟨body, ?_⟩
          dsimp only
          rw [bind_of_ok (frame_of_cons frames), get_bind, modify_bind]
          let created := machine.store.alloc
            (.block (current.closure body (Instruction.unpack instruction.operand).2))
          obtain ⟨operands, isReached⟩ := reached_pushTracked (.ref created.1)
            (show ({ machine with store := created.2 } : Machine).frames = current :: rest from
              frames)
          exact ⟨operands, rfl, isReached⟩
      | int _ | float _ | string _ | bool _ | nil | classDescriptor _ =>
          exact Or.inl rfl

end Exec

namespace Machine

variable {reading : Reading} {start machine : Machine} {commands : List Command} {current : Frame}
  {rest : List Frame} {instruction : Instruction}

/-- A step that creates a block, if it does not fail before. -/
theorem step_makeClosure (frames : machine.frames = current :: rest)
    (next : current.code.code[current.ip]? = some instruction)
    (isClosure : instruction.opcode = .makeClosure) :
    machine.step.1 = { machine with steps := machine.steps + 1 } ∨
      machine.step.1 = Exec.prepared machine current rest ∨
      ∃ body operands, Instruction.packedSelected current.code.constants instruction.operand =
          some (.block body) ∧
        let created := (Exec.prepared machine current rest).store.alloc
          (.block (current.closure body (Instruction.unpack instruction.operand).2))
        machine.step.1 =
          { Exec.prepared machine current rest with
            store := created.2.track (.ref created.1)
            frames := { current with ip := current.ip + 1, stack := operands } :: rest } := by
  rw [step_fst_of_cons frames]
  by_cases within : ∀ limit, machine.config.maxSteps = some limit → machine.steps < limit
  · have executes : Exec.execute instruction = Exec.andGoOn (Exec.makeClosure instruction) := by
      unfold Exec.execute
      rw [isClosure]
    rw [Exec.step_of_within frames next within, executes, Exec.reached_andGoOn]
    have advanced : (Exec.prepared machine current rest).frames =
        { current with ip := current.ip + 1 } :: rest := rfl
    exact Or.inr (Exec.reached_makeClosure instruction advanced)
  · obtain ⟨limit, isLimit, spent⟩ : ∃ limit, machine.config.maxSteps = some limit ∧
        limit ≤ machine.steps := by
      simpa using within
    rw [Exec.step_of_spent isLimit spent]
    exact Or.inl rfl

theorem Traceable.creating (traceable : Traceable reading start commands machine)
    (isMachine : machine = start.after commands) (frames : machine.frames = current :: rest)
    (next : current.code.code[current.ip]? = some instruction)
    (isClosure : instruction.opcode = .makeClosure) :
    Traceable reading start (commands ++ [.step]) machine.step.1 := by
  have creating : start.Steps (commands ++ [.step]) machine := ⟨commands, [], rfl, isMachine⟩
  have quiet := machine.quiet_counted_tidied
  have prepared := traceable.prepared frames [.step]
  rcases step_makeClosure frames next isClosure with
    spent | failed | ⟨body, operands, selects, made⟩
  · rw [spent]
    exact traceable.quiet (.counted machine) _
  · rw [failed]
    exact prepared
  · have innermost := fixed_mem_activations frames
    obtain ⟨others, passages, descends⟩ := traceable.activations _ innermost
    obtain ⟨passage, outer, rfl, reads⟩ := descends.covers.head
    obtain ⟨inner, kind, count, readsInner⟩ := reading.block reads next isClosure selects
    refine ⟨?_, ?_, ?_, fun id closure found => ?_, ?_⟩
    · rw [made]
      exact prepared.wellFormed
    · rw [made]
      exact prepared.session
    · rw [made]
      exact prepared.activations
    · have isFound := found
      rw [made] at isFound ⊢
      rw [Store.get?_track, Store.get?_alloc] at isFound
      split at isFound
      · rename_i isNew
        cases isFound
        refine .of creating ⟨⟨current, rest, instruction, frames, rfl, next, isClosure⟩, ?_, found⟩
          (descends.later quiet.contexts.keeps _) rfl kind count readsInner
        have size := quiet.inherits.size_le
        rw [Store.get?_eq_bind, isNew]
        simp only [Exec.prepared, Array.getElem?_eq_none size, Option.bind_none]
      · exact prepared.blocks id closure isFound
    · rw [made]
      dsimp only
      exact (prepared.methods.allocBlock _).inherits (Store.inherits_track _ _)

/-! ## Runs -/

theorem Traceable.step (traceable : Traceable reading start commands machine)
    (isMachine : machine = start.after commands) (alike : machine.Alike machine)
    (bounded : machine.Bounded) : Traceable reading start (commands ++ [.step]) machine.step.1 := by
  by_cases creates : ∃ current rest instruction, machine.frames = current :: rest ∧
      current.code.code[current.ip]? = some instruction ∧ instruction.opcode = .makeClosure
  · obtain ⟨current, rest, instruction, frames, next, isClosure⟩ := creates
    exact traceable.creating isMachine frames next isClosure
  by_cases assigns : ∃ current rest instruction, machine.frames = current :: rest ∧
      current.code.code[current.ip]? = some instruction ∧ instruction.assigns = true
  · obtain ⟨current, rest, instruction, frames, next, assigns⟩ := assigns
    exact traceable.assigning alike bounded frames next assigns
  · have obeys : machine.Obeys .blockless := by
      intro current rest instruction frames next
      exact ⟨fun isClosure => creates ⟨current, rest, instruction, frames, next, isClosure⟩,
        fun refused => (refused trivial).elim,
        fun does => assigns ⟨current, rest, instruction, frames, next, does⟩⟩
    have progress := traceable.progress (moves_step_of alike bounded obeys).1
    exact traceable.blockless isMachine progress (alike.after [.step])

/-- A program that starts has no lineage but itself. -/
theorem Traceable.begin {unit : CodeUnit} {passage : Passage} {context : ContextId}
    {contexts : Arena} (traceable : Traceable reading start commands machine)
    (isTopLevel : passage.kind = .topLevel) (reads : reading.reads passage [] unit)
    (keeps : machine.contexts.Keeps contexts) (wellFormed : contexts.WellFormed)
    (threads : contexts.Threads [context]) (more : List Command) :
    Traceable reading start (commands ++ more) ({ machine with contexts }.start unit context) := by
  refine ⟨wellFormed, traceable.session.keeps keeps, ?_, fun id closure found => ?_,
    traceable.methods⟩
  · intro activation member
    cases List.mem_singleton.mp member
    exact ⟨[], [passage], .outermost nofun, .cons isTopLevel.symm reads .nil, threads,
      .cons (fun notProgram => (notProgram rfl).elim) .nil⟩
  · exact (traceable.blocks id closure found).later keeps more

theorem traceable_new (reading : Reading) (config : Config) (refusal : Option String) :
    Traceable reading (new config refusal) [] (new config refusal) := by
  have nothing : (new config refusal).activations = [] := rfl
  have empty : Store.empty.Sourced reading := by
    intro id object found
    cases found
  have onlyRoot : ∀ id object, (new config refusal).store.get? id = some object →
      object = .classObject (ClassObject.root rootClassName) := by
    intro id object found
    change (Store.empty.alloc (.classObject (ClassObject.root rootClassName))).2.get? id =
      some object at found
    rcases Store.get?_alloc_cases found with isRoot | was
    · exact isRoot
    · cases was
  refine ⟨Arena.wellFormed_empty.alloc _, ?_, ?_, fun id closure found => ?_,
    fun id object found => ?_⟩
  · have outermost : (new config refusal).contexts.Threads [] := trivial
    exact (Arena.holds_alloc Arena.wellFormed_empty ⟨#[], none⟩).threads outermost
  · simp [nothing]
  · cases onlyRoot id _ found
  · rw [onlyRoot id object found]
    intro method member
    cases member

/-- However far a machine has run, every activation and every block has a lineage. -/
theorem traceable_after (config : Config) (refusal : Option String) {commands : List Command}
    (loads : reading.Loads commands) :
    Traceable reading (new config refusal) commands ((new config refusal).after commands) := by
  induction commands using List.reverseRecOn with
  | nil =>
      exact traceable_new reading config refusal
  | append_singleton earlier command inductionHypothesis =>
      have traceable := inductionHypothesis fun unit loaded =>
        loads unit (loaded.imp (List.mem_append_left _) (List.mem_append_left _))
      have alike := alike_after config refusal earlier
      have bounded := bounded_after config refusal earlier
      rw [after_append]
      generalize isMachine : (new config refusal).after earlier = machine at *
      have unchanged : Traceable reading (new config refusal) (earlier ++ [command]) machine :=
        traceable.quiet .ofOutput _
      cases command with
      | load unit =>
          obtain ⟨passage, isTopLevel, reads⟩ := loads unit (by simp)
          change Traceable reading _ _ (machine.load unit).1
          unfold load
          split
          · exact unchanged
          · let allocated := machine.contexts.alloc ⟨#[], none⟩
            have outermost : allocated.2.Threads [] := trivial
            exact traceable.begin isTopLevel reads (Arena.keeps_alloc traceable.wellFormed _)
              (traceable.wellFormed.alloc _)
              ((Arena.holds_alloc traceable.wellFormed ⟨#[], none⟩).threads outermost) _
      | loadInSession unit =>
          obtain ⟨passage, isTopLevel, reads⟩ := loads unit (by simp)
          change Traceable reading _ _ (machine.loadInSession unit).1
          unfold loadInSession
          split
          · exact unchanged
          · exact traceable.begin isTopLevel reads (.refl _) traceable.wellFormed
              traceable.session _
      | step =>
          exact traceable.step isMachine.symm alike bounded
      | collect =>
          exact traceable.quiet machine.quiet_collectGarbage _

end Machine

end Missive
