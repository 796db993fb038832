import Missive.Proofs.Steps.Soundness

/-!
# How classes and instances are laid out

A class refers to its superclass itself and not to its name.  The name may be bound to another class
later, also to one below, but the superclass is the one that was there when the class was created.
So the way up from a class leads to older and older classes and ends, whatever happens to the names.

A class is created from a descriptor in the code of a running activation.  Its fields are those of
its superclass and then those of the descriptor.  Neither changes any more, and as long as the class
is there its superclass is there as well: an object goes away only when no other refers to it.  The
same holds of an instance and its class, and so an instance has a value for each field of its class.
-/

namespace Missive

/-! ## Where code comes from -/

/-- The unit is the whole, or it lies inside the whole: as a block or as the body of a method. -/
inductive CodeUnit.Holds (whole : CodeUnit) : CodeUnit → Prop
  | self : Holds whole whole
  | block {part body : CodeUnit} : Holds whole part → .block body ∈ part.constants →
      Holds whole body
  | method {part : CodeUnit} {descriptor : ClassDescriptor} {method : MethodDescriptor} :
      Holds whole part → .classDescriptor descriptor ∈ part.constants →
      method ∈ descriptor.methods ++ descriptor.classMethods → Holds whole method.body

/-- The unit that a command asks to load. -/
def Command.unit? : Command → Option CodeUnit
  | .load code | .loadInSession code => some code
  | .step | .collect => none

/-- The unit is one that the commands ask to load, or lies inside of one. -/
def Brought (commands : List Command) (part : CodeUnit) : Prop :=
  ∃ command ∈ commands, ∃ whole, command.unit? = some whole ∧ whole.Holds part

/-- The root class as a descriptor would describe it. -/
def ClassDescriptor.root : ClassDescriptor := ⟨rootClassName, none, [], [], [], []⟩

/-- The descriptor lies in the units that the commands ask to load, or describes the root class. -/
def Described (commands : List Command) (descriptor : ClassDescriptor) : Prop :=
  descriptor = ClassDescriptor.root ∨
    ∃ part, Brought commands part ∧ .classDescriptor descriptor ∈ part.constants

section Code

variable {commands : List Command} {part : CodeUnit}

theorem Brought.block {body : CodeUnit} (brought : Brought commands part)
    (member : .block body ∈ part.constants) : Brought commands body := by
  obtain ⟨command, isCommand, whole, isWhole, holds⟩ := brought
  exact ⟨command, isCommand, whole, isWhole, holds.block member⟩

theorem Described.method {descriptor : ClassDescriptor} {method : MethodDescriptor}
    (described : Described commands descriptor)
    (member : method ∈ descriptor.methods ++ descriptor.classMethods) :
    Brought commands method.body := by
  rcases described with rfl | ⟨part, ⟨command, isCommand, whole, isWhole, holds⟩, isConstant⟩
  · cases member
  · exact ⟨command, isCommand, whole, isWhole, holds.method isConstant member⟩

end Code

namespace Store

variable {described : ClassDescriptor → Prop} {store : Store}

/-- The methods of a class are those of a descriptor. -/
theorem Laid.exists_follows {id : ObjectId} {definition : ClassObject}
    (laid : Laid described store id definition) :
    ∃ descriptor inherited, described descriptor ∧ definition.Follows descriptor inherited := by
  cases laid with
  | top isDescribed _ follows | below isDescribed _ _ _ follows =>
      exact ⟨_, _, isDescribed, follows⟩

/-- A class is created below a class that is there, or below none. -/
theorem Grounded.newClass (grounded : store.Grounded described) {descriptor : ClassDescriptor}
    {superclass : Option ObjectId} (isDescribed : described descriptor)
    (isThere : ∀ parent, superclass = some parent → ∃ above, store.class? parent = some above) :
    (store.newClass descriptor superclass).2.Grounded described := by
  refine grounded.alloc trivial ?_
  cases superclass with
  | none =>
      exact .top isDescribed rfl ⟨rfl, rfl, rfl, rfl⟩
  | some parent =>
      obtain ⟨above, isAbove⟩ := isThere parent rfl
      have older := index_lt_of_get? (get?_of_class? isAbove)
      refine .below isDescribed rfl older isAbove ⟨rfl, ?_, rfl, rfl⟩
      simp only [Option.bind_some, isAbove]

/-! ## The way up -/

/-- The classes that one meets by following the references to superclasses, up to a class that has
none. -/
inductive Ascent (store : Store) : ObjectId → List (ObjectId × ClassObject) → Prop
  | top {id : ObjectId} {definition : ClassObject} : store.class? id = some definition →
      definition.superclass = none → Ascent store id [(id, definition)]
  | up {id parent : ObjectId} {definition : ClassObject} {above : List (ObjectId × ClassObject)} :
      store.class? id = some definition → definition.superclass = some parent →
      Ascent store parent above → Ascent store id ((id, definition) :: above)

/-- The way up from a class ends, and it is the lineage. -/
theorem Grounded.ascent (grounded : store.Grounded described) {id : ObjectId}
    {definition : ClassObject} (isClass : store.class? id = some definition) :
    store.Ascent id (store.lineage id) := by
  induction place : id.index using Nat.strongRecOn generalizing id definition with
  | ind index inductionHypothesis =>
      rw [Store.lineage, isClass]
      cases grounded.classes id definition isClass with
      | top _ noSuperclass _ =>
          simp only [noSuperclass]
          exact .top isClass noSuperclass
      | below _ isSuperclass older isAbove _ =>
          simp only [isSuperclass, older, if_true]
          exact .up isClass isSuperclass (inductionHypothesis _ (place ▸ older) isAbove rfl)

end Store

namespace Machine

/-! ## What every step keeps -/

/-- The code of the machine comes from the commands, and classes and instances are laid out as the
descriptors say. -/
structure Sourced (commands : List Command) (machine : Machine) : Prop where
  frames : ∀ frame ∈ machine.frames, Brought commands frame.code
  blocks : ∀ id closure, machine.store.get? id = some (.block closure) →
    Brought commands closure.body
  store : machine.store.Grounded (Described commands)

variable {commands : List Command} {machine before after : Machine}

theorem Sourced.innermost {current : Frame} {rest : List Frame} (sourced : machine.Sourced commands)
    (frames : machine.frames = current :: rest) : Brought commands current.code :=
  sourced.frames current (frames ▸ List.mem_cons_self)

/-- Another state of the innermost activation. -/
theorem Sourced.replace {current changed : Frame} {rest : List Frame}
    (sourced : machine.Sourced commands) (frames : machine.frames = current :: rest)
    (sameCode : changed.code = current.code) :
    Sourced commands { machine with frames := changed :: rest } := by
  refine ⟨List.forall_mem_cons.mpr ⟨?_, fun frame member => ?_⟩, sourced.blocks, sourced.store⟩
  · rw [sameCode]
    exact sourced.innermost frames
  · exact sourced.frames frame (frames ▸ List.mem_cons_of_mem current member)

/-- An activation runs code that the commands have brought. -/
theorem Sourced.runs {licence : Licence} {frame : Frame} {outer : Option ContextId}
    {arguments : Nat} (sourced : machine.Sourced commands)
    (runs : machine.Runs licence frame arguments outer) :
    Brought commands frame.code := by
  cases runs with
  | @method _ owner _ definition method _ found _ _ isCode _ _ _ =>
      obtain ⟨isClass, isMethod⟩ := Store.method?_of_lookup found
      obtain ⟨descriptor, inherited, isDescribed, follows⟩ :=
        (sourced.store.classes owner definition isClass).exists_follows
      have member := ClassObject.mem_of_method? isMethod
      rw [follows.methods, follows.classMethods] at member
      rw [isCode]
      exact isDescribed.method member
  | @block id closure found _ isCode _ _ =>
      rw [isCode]
      exact sourced.blocks id closure found

theorem Move.sourced (move : Move .running before after) (sourced : before.Sourced commands) :
    after.Sourced commands := by
  cases move with
  | quiet quiet =>
      refine ⟨quiet.frames ▸ sourced.frames, fun id closure found => ?_,
        quiet.inherits.grounded _ sourced.store⟩
      rcases quiet.inherits.origin id _ found with ⟨object, was, same⟩ | ⟨_, plain⟩
      · rw [Object.eq_block_of_cleared same.symm] at was
        exact sourced.blocks id closure was
      · cases plain
  | assign _ _ _ _ _ | store _ _ _ _ =>
      exact ⟨sourced.frames, sourced.blocks, sourced.store⟩
  | push _ frames _ | drop _ frames | advance frames _ _ | jump frames _ _ =>
      exact sourced.replace frames rfl
  | makeBlock _ frames member _ =>
      refine ⟨sourced.frames, fun id closure found => ?_, sourced.store.alloc trivial trivial⟩
      rcases Store.get?_alloc_cases found with same | was
      · cases same
        exact (sourced.innermost frames).block member
      · exact sourced.blocks id closure was
  | makeClass superclass globals _ frames member isThere =>
      have isDescribed : Described commands _ := Or.inr ⟨_, sourced.innermost frames, member⟩
      refine ⟨sourced.frames, fun id closure found => ?_,
        sourced.store.newClass isDescribed isThere⟩
      rcases Store.get?_alloc_cases found with same | was
      · cases same
      · exact sourced.blocks id closure was
  | call _ _ _ _ runs _ =>
      exact ⟨List.forall_mem_cons.mpr ⟨sourced.runs runs, sourced.frames⟩, sourced.blocks,
        sourced.store⟩
  | leave suffix =>
      exact ⟨fun frame member => sourced.frames frame (suffix.mem member), sourced.blocks,
        sourced.store⟩
  | launch _ ground =>
      exact (ground.allowed.elim id id).elim

/-- A program starts with code that the commands have brought. -/
theorem Sourced.start {code : CodeUnit} (sourced : machine.Sourced commands)
    (brought : Brought commands code) (contexts : Arena) (context : ContextId) :
    ({ machine with contexts }.start code context).Sourced commands := by
  refine ⟨fun frame member => ?_, sourced.blocks, sourced.store⟩
  cases List.mem_singleton.mp member
  exact brought

theorem Sourced.obey {command : Command} (sourced : machine.Sourced commands)
    (member : command ∈ commands) (alike : machine.Alike machine) (bounded : machine.Bounded) :
    (machine.obey command).1.Sourced commands := by
  cases command with
  | load code =>
      have brought : Brought commands code := ⟨_, member, code, rfl, .self⟩
      change (machine.load code).1.Sourced commands
      unfold load
      cases code.verify with
      | error _ =>
          exact sourced
      | ok _ =>
          exact sourced.start brought _ _
  | loadInSession code =>
      have brought : Brought commands code := ⟨_, member, code, rfl, .self⟩
      change (machine.loadInSession code).1.Sourced commands
      unfold loadInSession
      cases code.verify with
      | error _ =>
          exact sourced
      | ok _ =>
          exact sourced.start brought machine.contexts machine.sessionContext
  | step =>
      exact (moves_step_of alike bounded (obeys_running machine)).1.keep (fun move => move.sourced)
        sourced
  | collect =>
      exact (Move.quiet machine.quiet_collectGarbage).sourced sourced

theorem sourced_new (commands : List Command) (config : Config) (refusal : Option String) :
    (new config refusal).Sourced commands := by
  have onlyRoot : ∀ id object, (new config refusal).store.get? id = some object →
      object = .classObject (ClassObject.root rootClassName) := by
    intro id object found
    rcases Store.get?_alloc_cases found with same | was
    · exact same
    · cases was
  refine ⟨fun frame member => ?_, fun id closure found => ?_, ⟨?_, ?_⟩⟩
  · cases member
  · cases onlyRoot id _ found
  · intro id classId values found
    cases onlyRoot id _ found
  · intro id definition isClass
    cases onlyRoot id _ (Store.get?_of_class? isClass)
    exact .top (Or.inl rfl) rfl ⟨rfl, rfl, rfl, rfl⟩

theorem sourced_after (config : Config) (refusal : Option String) (commands : List Command) :
    ((new config refusal).after commands).Sourced commands := by
  have keeps : ∀ (later : List Command) (machine : Machine), later ⊆ commands →
      machine.Alike machine → machine.Bounded → machine.Sourced commands →
      (machine.after later).Sourced commands := by
    intro later
    induction later with
    | nil =>
        intro machine _ _ _ sourced
        exact sourced
    | cons command rest inductionHypothesis =>
        intro machine part alike bounded sourced
        obtain ⟨member, restPart⟩ := List.cons_subset.mp part
        have boundedNext := (moves_after alike bounded [command]).keep (fun move => move.bounded)
          bounded
        exact inductionHypothesis _ restPart (alike.after [command]) boundedNext
          (sourced.obey member alike bounded)
  exact keeps commands _ (List.Subset.refl _) (alike_new config refusal)
    (bounded_new config refusal) (sourced_new commands config refusal)

/-- Whatever units a machine was asked to load and however far they have run: the way up from a
class along the references to superclasses ends, and lookups walk all of it; the fields of a class
are those of its superclass and then those of a descriptor from a loaded unit; and an instance has
exactly as many values as its class has fields. -/
theorem classes_and_instances_laid_out (config : Config) (refusal : Option String)
    (commands : List Command) :
    let store := ((new config refusal).after commands).store
    (∀ id definition, store.class? id = some definition →
      store.Ascent id (store.lineage id) ∧
        Store.Laid (Described commands) store id definition) ∧
      ∀ id classId values, store.get? id = some (.record classId values) →
        (∃ definition, store.class? classId = some definition) ∧
          values.length = store.fieldCount classId := by
  intro store
  have grounded : store.Grounded (Described commands) :=
    (sourced_after config refusal commands).store
  refine ⟨fun id definition isClass => ?_, fun id classId values found => ?_⟩
  · exact ⟨grounded.ascent isClass, grounded.classes id definition isClass⟩
  · obtain ⟨definition, isClass, sized⟩ := grounded.instances id classId values found
    refine ⟨⟨definition, isClass⟩, ?_⟩
    rw [sized, Store.fieldCount, isClass]

-- By its name the second class would be its own superclass.
example :
    let last := ((new {} none).eval 9
      [.define ⟨"A", some "Object", ["x"], [], [], []⟩,
        .define ⟨"A", some "A", ["y"], [], [], []⟩]).1
    let found := (last.globals.class? last.store "A").bind last.store.class?
    found.map ClassObject.fields = some ["x", "y"] ∧
      ((found.bind ClassObject.superclass).bind last.store.class?).map ClassObject.fields =
        some ["x"] := by
  decide +kernel

end Machine

end Missive
