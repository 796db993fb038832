import Missive.Proofs.Classes.Fields
import Missive.Proofs.Classes.Visibility

/-!
# Class variables mean the same at run time

The compiler looks for a class variable through the latest shapes of the classes by their names, the
machine through the classes themselves, which keep the superclass that they were created with.  The
two ways up from a class are the same as long as no class is defined again once it has a class below
it.  Then a name in a method that is neither a local variable nor a field is compiled to a class
variable exactly if the class that runs the method, or one above it, declares the variable.

A class that is defined again after that splits the two ways: the class below it keeps its old
superclass, while the compiler goes on from the new shape.
-/

namespace Missive

/-! ## The way up by classes -/

namespace Store

variable {library : Library} {store : Store} {link : Link} {id : ObjectId}
  {source : LoweredClass}

theorem isSome_classVarOwner?_iff {name : String} :
    (store.classVarOwner? id name).isSome = true ↔
      ∃ entry ∈ store.lineage id, entry.2.declares name = true := by
  unfold Store.classVarOwner?
  rw [List.find?_isSome]

/-- In a steady library both ways up meet the same class variables. -/
theorem Builds.declares_iff_sees (builds : store.Builds library id source)
    (stores : link.Stores store store) (steady : library.steady) (known : library.known source)
    (held : link.Has id) (name : String) :
    (∃ entry ∈ store.lineage id, entry.2.declares name = true) ↔
      source.after.Sees name source.name := by
  induction builds with
  | gone _ isGone =>
      obtain ⟨_, _, found, _⟩ := stores.get held
      rw [isGone] at found
      cases found
  | top found builtFrom isTop noSuperclass =>
      rw [Store.lineage, found, (library.isLeaf steady known).sees_name_iff]
      simp only [noSuperclass, isTop, List.mem_singleton, exists_eq_left,
        builtFrom.declares_iff, reduceCtorEq, false_and, exists_false, or_false]
  | @derived id parent source older definition superclass found builtFrom isNamed isSuperclass
      isOlder olderKnown presents _ inductionHypothesis =>
      have heldParent := (stores.has_of_class? held found).2.1 parent isSuperclass
      rw [Store.lineage, found, (library.isLeaf steady known).sees_name_iff]
      simp only [isSuperclass, isNamed, if_pos isOlder, List.mem_cons, exists_eq_or_imp,
        builtFrom.declares_iff, Option.some.injEq, exists_eq_left', presents.sees steady name,
        inductionHypothesis olderKnown heldParent]

end Store

/-! ## Names of class variables -/

/-- A name that is neither a local variable nor a field denotes a class variable exactly if the
session finds one. -/
theorem Surroundings.resolve_classVar_iff {session : Session} {scopes : List Scope}
    {owner : Owner} {name : String} (notLocal : findLocal name 0 scopes = none)
    (notField : owner.classSide = false → name ∉ owner.fields) :
    resolve ⟨session, scopes, some owner⟩ name = .ok .classVar ↔
      session.classVarVisible owner.className name = true := by
  have noField : (if owner.classSide then none else owner.fields.idxOf? name) = none := by
    split
    · rfl
    · rename_i onInstances
      exact List.idxOf?_eq_none_iff.mpr (notField (Bool.eq_false_iff.mpr onInstances))
  unfold resolve Owner.locate
  simp only [notLocal, noField]
  split
  · rename_i visible
    exact ⟨fun _ => visible, fun _ => rfl⟩
  · rename_i notVisible
    exact ⟨nofun, fun visible => (notVisible visible).elim⟩

theorem Surroundings.classVarVisible_of_resolve {session : Session} {scopes : List Scope}
    {owner : Owner} {name : String}
    (resolved : resolve ⟨session, scopes, some owner⟩ name = .ok .classVar) :
    session.classVarVisible owner.className name = true := by
  obtain ⟨_, ⟨⟩, located⟩ := owner_of_resolve resolved (Or.inl rfl)
  unfold Owner.locate at located
  split at located
  · cases located
  · split at located
    · rename_i visible
      exact visible
    · cases located

theorem StandsFor.classVar {session : Session} {owner : Owner} {pool : List Constant}
    {mention : Mention} {instruction : Instruction} {name : String}
    (standsFor : StandsFor session (some owner) pool mention instruction)
    (isUse : instruction.opcode = .loadClassVar ∨ instruction.opcode = .storeClassVar)
    (selects : Instruction.selected pool instruction.operand = some (.string name)) :
    session.classVarVisible owner.className name = true := by
  cases standsFor with
  | block _ _ =>
      rcases isUse with impossible | impossible <;> cases impossible
  | @use access _ scopes location _ resolved placed =>
      cases placed with
      | @classVar index small found =>
          have fits : index < 0x80000000 := Nat.lt_of_le_of_lt small (by decide)
          have operand : (Instruction.indexed (access.opcode .classVar) index).operand =
              Int32.ofNat index := rfl
          rw [Instruction.selected, operand, Exec.operandIndex?_ofNat fits, Option.bind_some,
            found] at selects
          cases selects
          exact Surroundings.classVarVisible_of_resolve resolved
      | slot | outer | field | global _ _ =>
          cases access <;> rcases isUse with impossible | impossible <;> cases impossible

theorem Instruction.not_classVar_of_isClassless {instruction : Instruction}
    (classless : instruction.isClassless = true) :
    ¬ (instruction.opcode = .loadClassVar ∨ instruction.opcode = .storeClassVar) := by
  unfold Instruction.isClassless at classless
  rintro (isUse | isUse) <;> simp [isUse] at classless

theorem Instruction.isMarked_of_classVar {instruction : Instruction}
    (isUse : instruction.opcode = .loadClassVar ∨ instruction.opcode = .storeClassVar) :
    instruction.isMarked = true := by
  unfold Instruction.isMarked
  rcases isUse with isUse | isUse <;> rw [isUse] <;> rfl

/-! ## Programs -/

section Programs

variable {program : Program} {final session : Session} {unit : CodeUnit}
  {sources remaining : List LoweredClass}
  {definedBy : DefinedBy program .initial final .empty unit sources}
  {spares : unit.Spares program.NamesClass} {store : Store} {link : Link} {id : ObjectId}
  {source : LoweredClass}

theorem Store.Builds.isSome_classVarOwner?_iff
    (builds : store.Builds (definedBy.library spares) id source)
    (stores : link.Stores store store) (stay : program.LinesStay)
    (known : (definedBy.library spares).known source) (held : link.Has id) (name : String) :
    (store.classVarOwner? id name).isSome = true ↔
      source.after.classVarVisible source.name name = true := by
  rw [Store.isSome_classVarOwner?_iff, Session.classVarVisible_iff_sees]
  exact builds.declares_iff_sees stores stay known held name

namespace Machine

variable {machine : Machine} {current : Frame} {rest : List Frame} {instruction : Instruction}

/-- An instruction that uses a class variable finds a class that declares it. -/
theorem Agreed.classVar {name : String}
    (agreed : machine.Agreed (definedBy.library spares) session remaining)
    (alike : machine.Alike machine) (stay : program.LinesStay)
    (frames : machine.frames = current :: rest)
    (next : current.code.code[current.ip]? = some instruction)
    (isUse : instruction.opcode = .loadClassVar ∨ instruction.opcode = .storeClassVar)
    (selects : Instruction.selected current.code.constants instruction.operand =
      some (.string name)) (isOwner : current.owner = some id) :
    (machine.store.classVarOwner? id name).isSome = true := by
  have member := List.mem_of_getElem? (Array.getElem?_toList.trans next)
  have stacked := agreed.frames
  rw [frames] at stacked
  cases stacked with
  | program isProgram =>
      rw [isProgram.owner] at isOwner
      cases isOwner
  | above isWritten _ _ =>
      have marked := Instruction.isMarked_of_classVar isUse
      rcases isWritten.method_or_program with
        ⟨_, source, method, statements, sameOwner, code⟩ | ⟨_, _, isBody⟩
      · rw [isOwner] at sameOwner
        cases sameOwner
        obtain ⟨link, _, machines⟩ := alike
        have heldFrames := machines.frames
        rw [frames] at heldFrames
        cases heldFrames with
        | cons held _ =>
            obtain ⟨_, _, standsFor⟩ := code.body.standsFor next marked
            exact (code.builds.isSome_classVarOwner?_iff machines.stores stay code.known
              (held.owner id isOwner) name).mpr (standsFor.classVar isUse selects)
      · obtain ⟨_, _, standsFor⟩ := isBody.standsFor next marked
        exact (Instruction.not_classVar_of_isClassless standsFor.isClassless isUse).elim

end Machine

end Programs

namespace Machine

/-- Take a program that was compiled by itself, that assigns to no global with the name of a class
and that defines no class again once it is a superclass, and run it on a new machine, however far.
Every class that the program can get at was built from one of the classes that were compiled, or
exists from the start; and a name that is neither a local variable nor a field in one of its methods
is compiled to a class variable exactly if the class, or one above it, declares the variable.  No
step finds a class variable undefined. -/
theorem class_variables_found (config : Config) (refusal : Option String) (program : Program)
    (unit : CodeUnit) (loaded machine : Machine) (count : Nat)
    (compiled : program.compile = .ok unit) (small : program.collectionsFit = true)
    (spares : ∀ name ∈ unit.storedGlobals, ¬ program.NamesClass name)
    (stay : program.LinesStay)
    (isLoaded : (new config refusal).load unit = (loaded, .ok ()))
    (ran : loaded.finish count = (machine, none)) :
    (∃ final sources, DefinedBy program .initial final .empty unit sources ∧
      ∀ id classObject, machine.Reachable (.object id) →
        machine.store.class? id = some classObject →
        ∃ source : LoweredClass, (source = .root ∨ source ∈ sources) ∧
          classObject.BuiltFrom source ∧
          ∀ classSide scopes name, findLocal name 0 scopes = none →
            (classSide = false → name ∉ source.shape.fields) →
            (Surroundings.resolve ⟨source.after, scopes, some (source.owner classSide)⟩ name =
              .ok .classVar ↔ (machine.store.classVarOwner? id name).isSome = true)) ∧
    ∀ fault, machine.step.2 = .error fault → ∀ name,
      fault.cause ≠ .undefinedClassVariable name := by
  obtain ⟨final, sources, definedBy, session, remaining, underway⟩ :=
    underway_of_finish compiled small spares isLoaded ran
  refine ⟨⟨final, sources, definedBy, fun id classObject reachable found => ?_⟩, ?_⟩
  · obtain ⟨link, _, machines⟩ := underway.alike
    have held : link.Has id := reachable.linked machines
    obtain ⟨source, known, builds⟩ := underway.agreed.sound.exists_source found
    refine ⟨source, known, (builds.of_class? found).1, ?_⟩
    intro classSide scopes name notLocal notField
    rw [Surroundings.resolve_classVar_iff notLocal notField]
    exact (builds.isSome_classVarOwner?_iff machines.stores stay known held name).symm
  · intro fault failed name isCause
    obtain ⟨agreed, alike, _⟩ := underway.counted
    have lacks := (moves_step_of underway.alike underway.bounded machine.obeys_any).2 fault failed
      (by rw [isCause]; rfl)
    rw [isCause] at lacks
    obtain ⟨current, rest, instruction, frames, next, isUse, selects, id, isOwner, none⟩ := lacks
    have declared := agreed.classVar alike stay frames next isUse selects isOwner
    rw [none] at declared
    cases declared

/-- A program that defines a class again before it has classes below it, and in which a block uses a
class variable of its superclass. -/
def savings : Program :=
  [.define ⟨"Account", some "Object", [], ["rate"], [], []⟩,
    .define ⟨"Savings", some "Account", ["rates"], [], [], []⟩,
    .define ⟨"Savings", some "Account", ["amount"], ["bonus"],
      [⟨"yield", [], [.return (.send (.block [] [.expr (.var "rate")]) "value" [])]⟩], []⟩,
    .expr (.assign "last" (.send (.send (.var "Savings") "new" []) "yield" []))]

/-- After 11 steps, the block loads the class variable. -/
theorem class_variables_found_savings :
    let machine := (savings.loaded.finish 11).1
    savings.compile = .ok savings.code ∧ savings.code.storedGlobals = ["last"] ∧
      machine.currentInstruction? = some (0, ⟨.loadClassVar, 0⟩) ∧
      (∃ source : LoweredClass, source.shape.fields = ["amount"] ∧
        Surroundings.resolve ⟨source.after, [], some (source.owner false)⟩ "rate" =
          .ok .classVar) ∧
      ∀ fault, machine.step.2 = .error fault → ∀ name,
        fault.cause ≠ .undefinedClassVariable name := by
  have compiled : savings.compile = .ok savings.code := rfl
  have stored : savings.code.storedGlobals = ["last"] := by decide +kernel
  have spares : ∀ name ∈ savings.code.storedGlobals, ¬ savings.NamesClass name := by
    rw [stored]
    decide
  have isLoaded : (new {} none).load savings.code = (savings.loaded, .ok ()) := Prod.ext rfl rfl
  have ran : savings.loaded.finish 11 = ((savings.loaded.finish 11).1, none) :=
    Prod.ext rfl (Option.isNone_iff_eq_none.mp (by decide +kernel))
  obtain ⟨⟨_, _, _, found⟩, notUndefined⟩ := class_variables_found {} none savings savings.code
    savings.loaded _ 11 compiled (by decide) spares (by decide) isLoaded ran
  refine ⟨compiled, stored, by decide +kernel, ?_, notUndefined⟩
  have bound : ("Savings", Value.ref ⟨3⟩) ∈ (savings.loaded.finish 11).1.globals.entries := by
    decide +kernel
  have fields : ((savings.loaded.finish 11).1.store.class? ⟨3⟩).map ClassObject.fields =
      some ["amount"] := by
    decide +kernel
  obtain ⟨classObject, isClass, isFields⟩ := Option.map_eq_some_iff.mp fields
  obtain ⟨source, _, builtFrom, resolved⟩ :=
    found ⟨3⟩ classObject (.global bound (List.mem_singleton.mpr rfl)) isClass
  have sameFields : source.shape.fields = ["amount"] := builtFrom.fields.symm.trans isFields
  refine ⟨source, sameFields, (resolved false [] "rate" rfl ?_).mpr (by decide +kernel)⟩
  rw [sameFields]
  decide

-- The superclass of `B` is the first `A` for the machine and the second one for the compiler.
example :
    let program : Program :=
      [.expr (.assign "v" (.literal (.int 5))), .define ⟨"A", some "Object", [], [], [], []⟩,
        .define ⟨"B", some "A", [], [], [], []⟩, .define ⟨"A", some "Object", [], ["v"], [], []⟩,
        .define ⟨"C", some "B", [], [], [⟨"m", [], [.return (.var "v")]⟩], []⟩,
        .expr (.send (.send (.var "C") "new" []) "m" [])]
    (program.compile.toOption.bind fun unit =>
      match ((new {} none).run 20 unit).2 with
      | some (.error fault) => some fault.cause
      | _ => none) = some (.undefinedClassVariable "v") := by
  decide +kernel

end Machine

end Missive
