import Missive.Proofs.Classes.Agreement

/-!
# Programs that run by themselves

A program that was compiled by itself and runs on a new machine has the class that exists from the
start and those that it defines.  If it assigns to no global with the name of one of these classes,
machine and session agree all the way.

What was known about the class variables of other classes stays true as long as no class is defined
again after another one, or it itself, has named it as superclass.
-/

namespace Missive

namespace Program

/-- The name is that of a class of the program, or of the class that exists from the start. -/
def NamesClass (program : Program) (name : String) : Prop :=
  name = rootClassName ∨ ∃ definition ∈ program.definitions, definition.name = name

instance (program : Program) (name : String) : Decidable (program.NamesClass name) :=
  inferInstanceAs (Decidable (_ ∨ _))

/-- No class is defined again once it is the superclass of another class or of itself. -/
def LinesStay (program : Program) : Prop :=
  (∀ definition ∈ program.definitions, definition.superclass ≠ some definition.name) ∧
    program.definitions.Pairwise fun earlier later => earlier.superclass ≠ some later.name

instance (program : Program) : Decidable program.LinesStay :=
  inferInstanceAs (Decidable (_ ∧ _))

/-- The code of a program, which is empty if the program does not compile. -/
def code (program : Program) : CodeUnit := program.compile.toOption.getD .empty

/-- A new machine with the usual limits that has loaded the program. -/
def loaded (program : Program) : Machine := ((Machine.new {} none).load program.code).1

end Program

/-- In a chain without such definitions, every class is defined before those below it. -/
theorem isLeaf_of_chained {session final : Session} {sources : List LoweredClass}
    (chained : Chained session sources final)
    (earlier : ∀ name shape, session.shape? name = some shape → ∀ source ∈ sources,
      shape.superclass ≠ some source.name)
    (own : ∀ source ∈ sources, source.definition.superclass ≠ some source.name)
    (stay : sources.Pairwise fun first later => first.definition.superclass ≠ some later.name) :
    ∀ source ∈ sources, source.IsLeaf := by
  induction chained with
  | nil _ =>
      exact fun _ impossible => (List.not_mem_nil impossible).elim
  | @cons session source sources final isBefore _ inductionHypothesis =>
      have sameShape : ∀ name, source.before.shape? name = session.shape? name := by
        intro name
        rw [Session.shape?, Session.shape?, isBefore]
      obtain ⟨ownFirst, ownRest⟩ := List.forall_mem_cons.mp own
      obtain ⟨stayFirst, stayRest⟩ := List.pairwise_cons.mp stay
      have isLeaf : source.IsLeaf := by
        refine ⟨ownFirst, fun name shape known => ?_⟩
        exact earlier name shape (sameShape name ▸ known) source List.mem_cons_self
      refine List.forall_mem_cons.mpr ⟨isLeaf, inductionHypothesis ?_ ownRest stayRest⟩
      -- The class just defined is the only new one that could name a later one as superclass.
      intro name shape known later member
      rw [source.shape?_after] at known
      split at known
      · cases known
        rw [source.shape_superclass]
        exact stayFirst later member
      · rw [sameShape] at known
        exact earlier name shape known later (List.mem_cons_of_mem _ member)

theorem LoweredClass.isLeaf_root : LoweredClass.root.IsLeaf :=
  ⟨nofun, fun _ _ => nofun⟩

namespace DefinedBy

variable {program : Program} {final : Session} {unit : CodeUnit} {sources : List LoweredClass}

theorem namesClass (definedBy : DefinedBy program .initial final .empty unit sources) :
    ∀ source ∈ sources, source.definition ∈ program.definitions := by
  intro source member
  rw [← definedBy.written]
  exact List.mem_map_of_mem member

theorem isLeaf (definedBy : DefinedBy program .initial final .empty unit sources)
    (stay : program.LinesStay) : ∀ source ∈ sources, source.IsLeaf := by
  obtain ⟨own, pairwise⟩ := stay
  refine isLeaf_of_chained definedBy.chained ?_ ?_ ?_
  · intro name shape known
    rw [← LoweredClass.after_root, LoweredClass.shape?_after] at known
    split at known
    · cases known
      exact fun _ _ => nofun
    · cases known
  · exact fun source member => own _ (definedBy.namesClass source member)
  · rw [← definedBy.written] at pairwise
    exact List.pairwise_map.mp pairwise

/-- The classes of a program that runs by itself. -/
def library (definedBy : DefinedBy program .initial final .empty unit sources)
    (spares : unit.Spares program.NamesClass) : Library where
  known source := source = .root ∨ source ∈ sources
  reserved := program.NamesClass
  steady := program.LinesStay
  spares := by
    rintro source (rfl | member) classSide method isMethod
    · exact (LoweredClass.not_mem_methodsOn_root isMethod).elim
    · exact definedBy.spares_method spares member isMethod
  isLeaf := by
    rintro stay source (rfl | member)
    · exact LoweredClass.isLeaf_root
    · exact definedBy.isLeaf stay source member

end DefinedBy

namespace Machine

variable {program : Program} {unit : CodeUnit} {loaded machine : Machine}

/-- A compiled program on a new machine is under way as long as it runs. -/
theorem underway_of_finish {config : Config} {refusal : Option String} {count : Nat}
    (compiled : program.compile = .ok unit) (small : program.collectionsFit = true)
    (spares : unit.Spares program.NamesClass)
    (isLoaded : (new config refusal).load unit = (loaded, .ok ()))
    (ran : loaded.finish count = (machine, none)) :
    ∃ final sources, ∃ definedBy : DefinedBy program .initial final .empty unit sources,
      ∃ session remaining,
        machine.Underway (definedBy.library spares) final session remaining := by
  have isCompiled : Session.initial.compile program =
      ((Session.initial.compile program).1, .ok unit) := Prod.ext rfl compiled
  obtain ⟨sources, definedBy⟩ := Session.definedBy_compile isCompiled
  refine ⟨_, sources, definedBy, ?_⟩
  have idle : (new config refusal).Idle (definedBy.library spares) .initial :=
    idle_new (Or.inl rfl) (Or.inl rfl) config refusal
  have known : ∀ source ∈ sources, (definedBy.library spares).known source ∧
      (definedBy.library spares).reserved source.name := fun source member =>
    ⟨Or.inr member, Or.inr ⟨_, definedBy.namesClass source member, rfl⟩⟩
  have alike := (Alike.load (settled_new config refusal).alike unit).2
  rw [isLoaded] at alike
  unfold load at isLoaded
  split at isLoaded
  · cases isLoaded
  · cases isLoaded
    have wellFormed := idle.kept.heap.wellFormed
    have kept := idle.kept.withContexts (Arena.keeps_alloc wellFormed ⟨#[], none⟩)
      (wellFormed.alloc _)
    have fresh : Idle (definedBy.library spares) .initial
        { new config refusal with
          contexts := ((new config refusal).contexts.alloc ⟨#[], none⟩).2 } :=
      ⟨kept, idle.sound, idle.binds⟩
    exact (fresh.start small isCompiled definedBy spares known
      (Arena.issued_alloc wellFormed _) alike).finish ran

end Machine

end Missive
