import Missive.Proofs.Classes.Programs

/-!
# Fields mean the same at run time

The compiler turns the name of a field into an index, from what it knows about the classes so far.
When the instruction is executed, the receiver is an instance of the class in whose method the name
stands or of a class below it, and its class has a field of that name at that index.  So an
instruction that uses a field never finds the index out of range.
-/

namespace Missive

/-- The instruction at the position of the activation was made for the use of a variable of the
name, in a method of a class of the program or in a block inside of it. -/
def Frame.MadeFor (program : Program) (frame : Frame) (access : Access) (name : String) : Prop :=
  ∃ definition ∈ program.definitions, ∃ classSide, ∃ method ∈ definition.methodsOn classSide,
    ∃ statements session fields, Inside method.body statements ∧
      Body session (some ⟨definition.name, fields, classSide⟩) statements frame.code ∧
      (mentionsInBody statements)[frame.code.mentionsBefore frame.ip]? = some (.use access name)

/-- The value is an instance.  Its class has a field of the name at the index, and the instance has
a value there. -/
def Store.HasField (store : Store) (value : Value) (index : Nat) (name : String) : Prop :=
  ∃ id classId values definition, store.see value = .record id classId values ∧
    store.class? classId = some definition ∧ definition.fields[index]? = some name ∧
    index < values.length

/-! ## Names of fields -/

/-- A name that denotes a field stands on the side of the instances, at the index of the field. -/
theorem Surroundings.getElem?_of_resolve_field {session : Session} {scopes : List Scope}
    {owner : Owner} {name : String} {index : Nat}
    (resolved : resolve ⟨session, scopes, some owner⟩ name = .ok (.field index)) :
    owner.classSide = false ∧ owner.fields[index]? = some name := by
  obtain ⟨_, ⟨⟩, located⟩ := owner_of_resolve resolved (Or.inr ⟨index, rfl⟩)
  have onInstances := Owner.classSide_of_field located
  refine ⟨onInstances, ?_⟩
  unfold Owner.locate at located
  rw [onInstances, if_neg Bool.false_ne_true] at located
  split at located
  · rename_i found
    cases located
    obtain ⟨inside, isName, _⟩ := List.idxOf?_eq_some_iff.mp found
    rw [List.getElem?_eq_getElem inside, isName]
  · split at located <;> cases located

theorem StandsFor.field {session : Session} {owner : Owner} {pool : List Constant}
    {mention : Mention} {instruction : Instruction}
    (standsFor : StandsFor session (some owner) pool mention instruction)
    (isField : instruction.opcode.operandKind = .field) :
    ∃ access name index, mention = .use access name ∧
      instruction = .indexed (access.opcode (.field index)) index ∧
      owner.classSide = false ∧ owner.fields[index]? = some name := by
  cases standsFor with
  | block _ _ =>
      cases isField
  | @use access name scopes location _ resolved placed =>
      cases placed with
      | @field index =>
          obtain ⟨onInstances, isName⟩ := Surroundings.getElem?_of_resolve_field resolved
          exact ⟨access, name, index, rfl, rfl, onInstances, isName⟩
      | slot | outer | classVar _ _ | global _ _ =>
          cases access <;> cases isField

theorem Instruction.isMarked_of_field {instruction : Instruction}
    (isField : instruction.opcode.operandKind = .field) : instruction.isMarked = true := by
  unfold Instruction.isMarked
  rw [isField]

theorem Instruction.not_field_of_isClassless {instruction : Instruction}
    (classless : instruction.isClassless = true) :
    instruction.opcode.operandKind ≠ .field := by
  intro isField
  unfold Instruction.isClassless at classless
  cases opcode : instruction.opcode <;> simp_all [Opcode.operandKind]

/-! ## Instances -/

/-- An instance that the machine holds on to is there, and so is its class. -/
theorem Store.InstanceOf.hasField {store : Store} {library : Library} {link : Link}
    {source : LoweredClass} {value : Value} {index : Nat} {name : String}
    (isInstance : store.InstanceOf library source value) (sound : store.Sound library)
    (stores : link.Stores store store) (held : link.Knows value)
    (isField : source.shape.fields[index]? = some name) : store.HasField value index name := by
  obtain ⟨id, rfl, _, isRecord⟩ := isInstance
  obtain ⟨object, _, found, _, _, objects⟩ := stores.get (Link.knows_ref.mp held)
  obtain ⟨classId, values, classSource, rfl, builds, hasFields⟩ := isRecord object found
  have hasClass : link.Has classId := objects.has_of_reference
    (List.mem_append_right _ (List.mem_singleton.mpr rfl))
  obtain ⟨definition, isClass⟩ := builds.exists_class? stores hasClass
  have builtFrom := (builds.of_class? isClass).1
  have named : definition.fields[index]? = some name := by
    obtain ⟨more, longer⟩ := hasFields
    obtain ⟨inside, _⟩ := List.getElem?_eq_some_iff.mp isField
    rw [builtFrom.fields, ← longer, List.getElem?_append_left inside, isField]
  refine ⟨id, classId, values, definition, ?_, isClass, named, ?_⟩
  · simp [Store.see, found]
  · rw [(sound.measured id classId values found).2 definition isClass]
    exact (List.getElem?_eq_some_iff.mp named).1

namespace Machine

variable {program : Program} {final session : Session} {unit : CodeUnit}
  {sources remaining : List LoweredClass} {machine : Machine} {current : Frame}
  {rest : List Frame} {instruction : Instruction}

/-- An instruction that uses a field finds the field for whose name it was made. -/
theorem Agreed.field {definedBy : DefinedBy program .initial final .empty unit sources}
    {spares : unit.Spares program.NamesClass}
    (agreed : machine.Agreed (definedBy.library spares) session remaining)
    (alike : machine.Alike machine)
    (fits : ∀ source ∈ sources, fieldsFit source.shape.fields = true)
    (frames : machine.frames = current :: rest)
    (next : current.code.code[current.ip]? = some instruction)
    (isField : instruction.opcode.operandKind = .field) :
    ∃ access name, current.MadeFor program access name ∧
      instruction.opcode = access.opcode (.field (Exec.elementCount instruction.operand)) ∧
      machine.store.HasField current.receiver (Exec.elementCount instruction.operand) name := by
  have member := List.mem_of_getElem? (Array.getElem?_toList.trans next)
  have stacked := agreed.frames
  rw [frames] at stacked
  cases stacked with
  | program isProgram =>
      rcases isProgram.instructions instruction member with classless | isDefinition
      · exact (Instruction.not_field_of_isClassless classless isField).elim
      · rw [isDefinition] at isField
        cases isField
  | above isWritten _ _ =>
      have marked := Instruction.isMarked_of_field isField
      rcases isWritten.method_or_program with
        ⟨id, source, method, statements, _, code⟩ | ⟨_, _, isBody⟩
      · obtain ⟨mention, mentioned, standsFor⟩ := code.body.standsFor next marked
        obtain ⟨access, name, index, rfl, rfl, onInstances, isName⟩ := standsFor.field isField
        have isSource : source ∈ sources := by
          rcases code.known with rfl | isSource
          · cases isName
          · exact isSource
        have small : index < 0x80000000 :=
          Nat.lt_of_lt_of_le (List.getElem?_eq_some_iff.mp isName).1
            (of_decide_eq_true (fits source isSource))
        have isIndex : Exec.elementCount
            (Instruction.indexed (access.opcode (.field index)) index).operand = index :=
          Exec.elementCount_ofNat small
        rw [isIndex]
        refine ⟨access, name, ?_, rfl, ?_⟩
        · exact ⟨source.definition, definedBy.namesClass source isSource, current.classSide, method,
            code.isWritten, statements, source.after, source.shape.fields, code.inside, code.body,
            mentioned⟩
        · obtain ⟨link, _, machines⟩ := alike
          have heldFrames := machines.frames
          rw [frames] at heldFrames
          cases heldFrames with
          | cons held _ =>
              exact (code.isInstance onInstances).hasField agreed.sound machines.stores
                held.receiver isName
      · obtain ⟨_, _, standsFor⟩ := isBody.standsFor next marked
        exact (Instruction.not_field_of_isClassless standsFor.isClassless isField).elim

/-- The machine in which a step executes its instruction: the step has been counted, and what is
not in use may have been collected. -/
theorem Underway.counted {library : Library}
    (underway : machine.Underway library final session remaining) :
    let counted := ({ machine with steps := machine.steps + 1 } : Machine).tidied
    counted.Agreed library session remaining ∧ counted.Alike counted ∧
      counted.frames = machine.frames :=
  ⟨(moves_counted_tidied machine).agreed underway.agreed, underway.alike.counted_tidied,
    frames_tidied _⟩

/-- Take a program that was compiled by itself and that assigns to no global with the name of a
class, and run it on a new machine, however far.  If the next instruction uses a field, it was made
for the name of a field in a method of the program, and the class of the receiver has a field of
that name at the index that the instruction uses.  No step finds a field out of range. -/
theorem fields_found (config : Config) (refusal : Option String) (program : Program)
    (unit : CodeUnit) (loaded machine : Machine) (count : Nat)
    (compiled : program.compile = .ok unit) (small : program.collectionsFit = true)
    (fits : fieldsFitInProgram .initial program = true)
    (spares : ∀ name ∈ unit.storedGlobals, ¬ program.NamesClass name)
    (isLoaded : (new config refusal).load unit = (loaded, .ok ()))
    (ran : loaded.finish count = (machine, none)) :
    (∀ current rest instruction, machine.frames = current :: rest →
      current.code.code[current.ip]? = some instruction →
      instruction.opcode.operandKind = .field →
      ∃ access name, current.MadeFor program access name ∧
        instruction.opcode = access.opcode (.field (Exec.elementCount instruction.operand)) ∧
        machine.store.HasField current.receiver (Exec.elementCount instruction.operand) name) ∧
    ∀ fault, machine.step.2 = .error fault → ∀ className index fieldCount,
      fault.cause ≠ .fieldOutOfRange className index fieldCount := by
  obtain ⟨final, sources, definedBy, session, remaining, underway⟩ :=
    underway_of_finish compiled small spares isLoaded ran
  have fieldsFit := definedBy.fieldsFit fits
  refine ⟨fun current rest instruction frames next isField => ?_, ?_⟩
  · exact underway.agreed.field underway.alike fieldsFit frames next isField
  · intro fault failed className index fieldCount isCause
    obtain ⟨agreed, alike, _⟩ := underway.counted
    have lacks := (moves_step_of underway.alike underway.bounded machine.obeys_any).2 fault failed
      (by rw [isCause]; rfl)
    rw [isCause] at lacks
    obtain ⟨current, rest, instruction, frames, next, isField, _, _, _, seen, short⟩ := lacks
    obtain ⟨_, _, _, _, _, _, _, _, sameSeen, _, _, inside⟩ :=
      agreed.field alike fieldsFit frames next isField
    rw [seen] at sameSeen
    cases sameSeen
    exact Nat.not_lt_of_le short inside

/-- A program in which a block stores a field, after the superclass was defined again. -/
def pixels : Program :=
  [.define ⟨"Point", some "Object", ["x"], [], [], []⟩,
    .define ⟨"Pixel", some "Point", ["color"], [],
      [⟨"color:", ["value"],
        [.expr (.send (.block [] [.expr (.assign "color" (.var "value"))]) "value" [])]⟩], []⟩,
    .define ⟨"Point", some "Object", ["x", "y"], [], [], []⟩,
    .expr (.assign "last" (.send (.send (.var "Pixel") "new" []) "color:" [.literal (.int 3)]))]

/-- After 13 steps, the block stores the field. -/
theorem fields_found_pixels :
    let machine := (pixels.loaded.finish 13).1
    pixels.compile = .ok pixels.code ∧ pixels.code.storedGlobals = ["last"] ∧
      machine.currentInstruction? = some (1, ⟨.storeField, 1⟩) ∧
      ∃ current rest access name, machine.frames = current :: rest ∧
        current.MadeFor pixels access name ∧ machine.store.HasField current.receiver 1 name := by
  have compiled : pixels.compile = .ok pixels.code := rfl
  have stored : pixels.code.storedGlobals = ["last"] := by decide +kernel
  have spares : ∀ name ∈ pixels.code.storedGlobals, ¬ pixels.NamesClass name := by
    rw [stored]
    decide
  have isLoaded : (new {} none).load pixels.code = (pixels.loaded, .ok ()) := Prod.ext rfl rfl
  have ran : pixels.loaded.finish 13 = ((pixels.loaded.finish 13).1, none) :=
    Prod.ext rfl (Option.isNone_iff_eq_none.mp (by decide +kernel))
  have next : (pixels.loaded.finish 13).1.currentInstruction? = some (1, ⟨.storeField, 1⟩) := by
    decide +kernel
  have found := (fields_found {} none pixels pixels.code pixels.loaded _ 13 compiled (by decide)
    (by decide) spares isLoaded ran).1
  refine ⟨compiled, stored, next, ?_⟩
  unfold currentInstruction? at next
  split at next
  · rename_i current rest frames
    obtain ⟨_, isNext, same⟩ := Option.map_eq_some_iff.mp next
    obtain ⟨_, rfl⟩ := Prod.mk.inj same
    obtain ⟨access, name, madeFor, _, hasField⟩ := found current rest _ frames isNext rfl
    exact ⟨current, rest, access, name, frames, madeFor, hasField⟩
  · cases next

end Machine

end Missive
