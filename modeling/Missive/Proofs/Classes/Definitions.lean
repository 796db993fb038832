import Missive.Proofs.Classes.Mentions
import Missive.Proofs.Compile.Verification
import Missive.Proofs.Object.Store

/-!
# Definitions of classes

A definition of a class is compiled in a session, which then knows the shape of the class, and
becomes a descriptor.  The methods of the descriptor are the code of the methods that were
written, and the fields of the shape are those of the superclass with the new ones after them.

The code of a program announces the classes that it defines, in the order in which they were
compiled.  Apart from this it needs no class.
-/

namespace Missive

/-! ## Sessions -/

theorem lookup_cons_eq_ite {α : Type} (key : String) (entry : String × α)
    (rest : List (String × α)) : (entry :: rest).lookup key =
      if key = entry.1 then some entry.2 else rest.lookup key := by
  by_cases same : key = entry.1
  · rw [List.lookup_cons, beq_iff_eq.mpr same, if_pos same]
  · rw [List.lookup_cons, beq_false_of_ne same, if_neg same]

namespace Session

theorem shape?_defineClass (session : Session) (className other : String) (shape : Shape) :
    (session.defineClass className shape).shape? other =
      if other = className then some shape else session.shape? other := by
  unfold Session.shape? Session.defineClass
  dsimp only
  induction session.classes with
  | nil =>
      rw [replaceShape, lookup_cons_eq_ite]
  | cons entry rest inductionHypothesis =>
      rw [replaceShape]
      split
      · rename_i sameName
        rw [lookup_cons_eq_ite, lookup_cons_eq_ite, sameName]
        split <;> rfl
      · rename_i otherName
        rw [lookup_cons_eq_ite, lookup_cons_eq_ite, inductionHypothesis]
        by_cases here : other = entry.1
        · rw [if_pos here, if_pos here, if_neg (here ▸ otherName)]
        · rw [if_neg here, if_neg here]

end Session

/-! ## Classes that were compiled -/

/-- The methods that are written on one side of a class. -/
def ClassDef.methodsOn (definition : ClassDef) (classSide : Bool) : List MethodDef :=
  if classSide then definition.classMethods else definition.methods

/-- A definition that was compiled: the session before it, the shape and the descriptor. -/
structure LoweredClass where
  before : Session
  definition : ClassDef
  shape : Shape
  descriptor : ClassDescriptor
  isShape : shapeOf before definition = .ok shape
  isDescriptor : lowerMethods (before.defineClass definition.name shape) definition shape.fields =
    .ok descriptor

namespace LoweredClass

variable (source : LoweredClass)

/-- The name of the class. -/
def name : String := source.definition.name

/-- The session that knows the class. -/
def after : Session := source.before.defineClass source.name source.shape

/-- The class as the methods on one side of it see it. -/
def owner (classSide : Bool) : Owner := ⟨source.name, source.shape.fields, classSide⟩

/-- The methods on one side of the class. -/
def methodsOn (classSide : Bool) : List MethodDescriptor :=
  if classSide then source.descriptor.classMethods else source.descriptor.methods

/-- The class that exists from the start. -/
def root : LoweredClass where
  before := ⟨[], []⟩
  definition := ⟨rootClassName, none, [], [], [], []⟩
  shape := ⟨none, [], []⟩
  descriptor := ⟨rootClassName, none, [], [], [], []⟩
  isShape := rfl
  isDescriptor := rfl

theorem after_root : root.after = .initial := rfl

theorem not_mem_methodsOn_root {classSide : Bool} {method : MethodDescriptor} :
    method ∉ root.methodsOn classSide := by
  cases classSide <;> exact List.not_mem_nil

theorem shape?_after (name : String) : source.after.shape? name =
    if name = source.name then some source.shape else source.before.shape? name :=
  source.before.shape?_defineClass source.name name source.shape

theorem shape?_after_name : source.after.shape? source.name = some source.shape := by
  rw [shape?_after, if_pos rfl]

variable {source}

theorem exists_of_lowerClass {session extended : Session} {definition : ClassDef}
    {descriptor : ClassDescriptor}
    (lowered : lowerClass session definition = (extended, .ok descriptor)) :
    ∃ source : LoweredClass, source.before = session ∧ source.definition = definition ∧
      source.descriptor = descriptor ∧ source.after = extended := by
  obtain ⟨shape, isShape, rfl, isDescriptor⟩ := lowerClass_eq_ok.mp lowered
  exact ⟨⟨session, definition, shape, descriptor, isShape, isDescriptor⟩, rfl, rfl, rfl, rfl⟩

/-! ### The descriptor -/

theorem lowerMethods_of_descriptor (source : LoweredClass) :
    (∀ classSide, (source.definition.methodsOn classSide).mapM
        (lowerMethod source.after (source.owner classSide)) = .ok (source.methodsOn classSide)) ∧
      source.descriptor.name = source.name ∧
      source.descriptor.superclass = source.definition.superclass ∧
      source.descriptor.fields = source.definition.fields ∧
      source.descriptor.classVars = source.definition.classVars := by
  obtain ⟨methods, classMethods, ofMethods, ofClassMethods, isDescriptor⟩ :=
    lowerMethods_eq_ok.mp source.isDescriptor
  refine ⟨fun classSide => ?_, ?_⟩
  · unfold methodsOn
    rw [isDescriptor]
    cases classSide with
    | false =>
        exact ofMethods
    | true =>
        exact ofClassMethods
  · rw [isDescriptor]
    exact ⟨rfl, rfl, rfl, rfl⟩

theorem descriptor_name (source : LoweredClass) : source.descriptor.name = source.name :=
  source.lowerMethods_of_descriptor.2.1

theorem descriptor_superclass (source : LoweredClass) :
    source.descriptor.superclass = source.definition.superclass :=
  source.lowerMethods_of_descriptor.2.2.1

theorem descriptor_fields (source : LoweredClass) :
    source.descriptor.fields = source.definition.fields :=
  source.lowerMethods_of_descriptor.2.2.2.1

theorem descriptor_classVars (source : LoweredClass) :
    source.descriptor.classVars = source.definition.classVars :=
  source.lowerMethods_of_descriptor.2.2.2.2

/-- Every method was lowered from one that was written. -/
theorem lowered_of_method {classSide : Bool} {method : MethodDescriptor}
    (member : method ∈ source.methodsOn classSide) :
    ∃ written ∈ source.definition.methodsOn classSide,
      lowerMethod source.after (source.owner classSide) written = .ok method :=
  Except.exists_of_mem_mapM (source.lowerMethods_of_descriptor.1 classSide) member

/-- Every method is the code of one that was written. -/
theorem body_of_method {classSide : Bool} {method : MethodDescriptor}
    (member : method ∈ source.methodsOn classSide) :
    ∃ written ∈ source.definition.methodsOn classSide,
      Body source.after (some (source.owner classSide)) written.body method.body := by
  obtain ⟨written, isWritten, lowered⟩ := lowered_of_method member
  obtain ⟨body, _, bodyLowered, rfl⟩ := lowerMethod_eq_ok.mp lowered
  exact ⟨written, isWritten, _, bodyLowered⟩

/-! ### The shape -/

/-- The fields that the class inherits, as the session knows them. -/
def inherited (source : LoweredClass) : List String :=
  match source.definition.superclass.bind source.before.shape? with
  | some shape => shape.fields
  | none => []

theorem shape_of_definition (source : LoweredClass) :
    (∀ name, source.definition.superclass = some name → (source.before.shape? name).isSome) ∧
      source.shape = ⟨source.definition.superclass, source.inherited ++ source.definition.fields,
        source.definition.classVars⟩ := by
  obtain ⟨known, fields, extended, isShape⟩ := shapeOf_eq_ok.mp source.isShape
  have isInherited : ((source.definition.superclass.bind source.before.shape?).map
      Shape.fields).getD [] = source.inherited := by
    unfold inherited
    cases source.definition.superclass.bind source.before.shape? <;> rfl
  refine ⟨known, ?_⟩
  rw [isShape, extendFields_ok extended, isInherited]

theorem shape_fields (source : LoweredClass) :
    source.shape.fields = source.inherited ++ source.definition.fields := by
  rw [source.shape_of_definition.2]

theorem shape_superclass (source : LoweredClass) :
    source.shape.superclass = source.definition.superclass := by
  rw [source.shape_of_definition.2]

theorem shape_classVars (source : LoweredClass) :
    source.shape.classVars = source.definition.classVars := by
  rw [source.shape_of_definition.2]

end LoweredClass

/-! ## Classes at run time -/

/-- The class is what the descriptor and the shape say. -/
structure ClassObject.BuiltFrom (definition : ClassObject) (source : LoweredClass) : Prop where
  name : definition.name = source.name
  fields : definition.fields = source.shape.fields
  methods : ∀ classSide, (if classSide then definition.classMethods else definition.methods) =
    source.methodsOn classSide
  classVars : definition.classVars.map Prod.fst = source.definition.classVars.eraseDups

namespace ClassObject.BuiltFrom

variable {definition : ClassObject} {source : LoweredClass}

theorem method_mem (builtFrom : definition.BuiltFrom source) {classSide : Bool}
    {selector : String} {method : MethodDescriptor}
    (found : definition.method? classSide selector = some method) :
    method ∈ source.methodsOn classSide := by
  unfold ClassObject.method? at found
  rw [← builtFrom.methods classSide]
  exact List.mem_reverse.mp (List.mem_of_find?_eq_some found)

theorem declares_iff (builtFrom : definition.BuiltFrom source) (name : String) :
    definition.declares name = true ↔ name ∈ source.definition.classVars := by
  rw [← List.mem_eraseDups, ← builtFrom.classVars, ClassObject.declares, List.any_eq_true,
    List.mem_map]
  simp only [beq_iff_eq]

theorem of_cleared {other : ClassObject} (builtFrom : definition.BuiltFrom source)
    (same : (Object.classObject other).cleared = (Object.classObject definition).cleared) :
    other.BuiltFrom source := by
  obtain ⟨_, ⟨⟩, name, _, fields, methods, classMethods, classVars⟩ :=
    Object.eq_classObject_of_cleared same
  exact ⟨name.trans builtFrom.name, fields.trans builtFrom.fields,
    fun classSide => methods ▸ classMethods ▸ builtFrom.methods classSide,
    classVars.trans builtFrom.classVars⟩

end ClassObject.BuiltFrom

theorem builtFrom_root : (ClassObject.root rootClassName).BuiltFrom .root :=
  ⟨rfl, rfl, fun classSide => by cases classSide <;> rfl, rfl⟩

/-! ## Programs -/

/-- The instruction uses neither fields nor class variables, defines no class and does not jump. -/
def Instruction.isClassless (instruction : Instruction) : Bool :=
  match instruction.opcode with
  | .loadField | .storeField | .loadClassVar | .storeClassVar | .defineClass | .jump
  | .jumpIfFalse => false
  | _ => true

theorem Instruction.not_define_of_isClassless {instruction : Instruction}
    (classless : instruction.isClassless = true) : instruction.opcode ≠ .defineClass := by
  intro isDefinition
  unfold isClassless at classless
  rw [isDefinition] at classless
  cases classless

/-- The code defines the classes, one after the other, and does nothing else that needs a class. -/
inductive Announces (pool : List Constant) : List Instruction → List LoweredClass → Prop
  | nil : Announces pool [] []
  | other {instruction : Instruction} {rest : List Instruction} {sources : List LoweredClass} :
      instruction.isClassless = true → Announces pool rest sources →
      Announces pool (instruction :: rest) sources
  | define {index : Nat} {rest : List Instruction} {source : LoweredClass}
      {sources : List LoweredClass} : index ≤ Instruction.maxPackedIndex →
      pool[index]? = some (.classDescriptor source.descriptor) → Announces pool rest sources →
      Announces pool (.indexed .defineClass index :: rest) (source :: sources)

theorem Announces.append {pool : List Constant} {first second : List Instruction}
    {sources more : List LoweredClass} (earlier : Announces pool first sources)
    (later : Announces pool second more) :
    Announces pool (first ++ second) (sources ++ more) := by
  induction earlier with
  | nil =>
      exact later
  | other classless _ inductionHypothesis =>
      exact .other classless inductionHypothesis
  | define small found _ inductionHypothesis =>
      exact .define small found inductionHypothesis

theorem announces_of_classless {pool : List Constant} {code : List Instruction}
    (classless : ∀ instruction ∈ code, instruction.isClassless = true) :
    Announces pool code [] := by
  induction code with
  | nil =>
      exact .nil
  | cons instruction rest inductionHypothesis =>
      obtain ⟨first, others⟩ := List.forall_mem_cons.mp classless
      exact .other first (inductionHypothesis others)

/-- The classes were compiled one after the other, from the first session to the last one.  The
variables of the top level do not matter. -/
inductive Chained : Session → List LoweredClass → Session → Prop
  | nil {session final : Session} : session.classes = final.classes → Chained session [] final
  | cons {session : Session} {source : LoweredClass} {sources : List LoweredClass}
      {final : Session} : session.classes = source.before.classes →
      Chained source.after sources final → Chained session (source :: sources) final

theorem Chained.congr {session other final : Session} {sources : List LoweredClass}
    (chained : Chained session sources final) (same : other.classes = session.classes) :
    Chained other sources final := by
  cases chained with
  | nil isFinal =>
      exact .nil (same.trans isFinal)
  | cons isBefore later =>
      exact .cons (same.trans isBefore) later

/-- The constant is a value, the code of a block of the program itself, or one of the classes. -/
inductive Constant.OfProgram (sources : List LoweredClass) : Constant → Prop
  | scalar {constant : Constant} : constant.isScalar = true → OfProgram sources constant
  | block {session : Session} {statements : List Stmt} {body : CodeUnit} :
      Body session none statements body → OfProgram sources (.block body)
  | classDescriptor {source : LoweredClass} : source ∈ sources →
      OfProgram sources (.classDescriptor source.descriptor)

theorem Constant.OfProgram.mono {sources more : List LoweredClass} {constant : Constant}
    (ofProgram : constant.OfProgram sources) (subset : sources ⊆ more) :
    constant.OfProgram more := by
  cases ofProgram with
  | scalar isScalar =>
      exact .scalar isScalar
  | block isBody =>
      exact .block isBody
  | classDescriptor member =>
      exact .classDescriptor (subset member)

/-- The second unit is the first one with code of a program that defines the classes. -/
structure Programmed (sources : List LoweredClass) (unit grown : CodeUnit) : Prop where
  poolFits : grown.PoolFits
  constants : ∃ added, grown.constants = unit.constants ++ added ∧
    ∀ constant ∈ added, constant.OfProgram sources
  code : ∃ added, grown.code.toList = unit.code.toList ++ added ∧
    ∀ pool, grown.constants <+: pool → Announces pool added sources

namespace Programmed

variable {sources more : List LoweredClass} {unit between grown : CodeUnit}

theorem trans (earlier : Programmed sources unit between)
    (later : Programmed more between grown) : Programmed (sources ++ more) unit grown := by
  obtain ⟨firstConstants, firstPool, firstOf⟩ := earlier.constants
  obtain ⟨secondConstants, secondPool, secondOf⟩ := later.constants
  obtain ⟨firstCode, firstAdded, firstAnnounces⟩ := earlier.code
  obtain ⟨secondCode, secondAdded, secondAnnounces⟩ := later.code
  refine ⟨later.poolFits, ⟨firstConstants ++ secondConstants, ?_, ?_⟩,
    ⟨firstCode ++ secondCode, ?_, ?_⟩⟩
  · rw [secondPool, firstPool, List.append_assoc]
  · refine List.forall_mem_append.mpr ⟨?_, ?_⟩
    · exact fun constant member =>
        (firstOf constant member).mono (List.subset_append_left _ _)
    · exact fun constant member =>
        (secondOf constant member).mono (List.subset_append_right _ _)
  · rw [secondAdded, firstAdded, List.append_assoc]
  · intro pool isLonger
    have fromBetween : between.constants <+: pool :=
      (secondPool ▸ List.prefix_append _ _ : between.constants <+: grown.constants).trans isLonger
    exact (firstAnnounces pool fromBetween).append (secondAnnounces pool isLonger)

end Programmed

/-- Outside of a class, names denote neither fields nor class variables. -/
theorem StandsFor.isClassless {session : Session} {pool : List Constant} {mention : Mention}
    {instruction : Instruction} (standsFor : StandsFor session none pool mention instruction) :
    instruction.isClassless = true := by
  cases standsFor with
  | block _ _ =>
      rfl
  | @use access name scopes location _ resolved placed =>
      have notOfClass : ¬ (location = .classVar ∨ ∃ index, location = .field index) := by
        intro ofClass
        obtain ⟨_, impossible, _⟩ := Surroundings.owner_of_resolve resolved ofClass
        cases impossible
      cases placed with
      | slot | outer | global _ _ =>
          cases access <;> rfl
      | field =>
          exact (notOfClass (Or.inr ⟨_, rfl⟩)).elim
      | classVar _ _ =>
          exact (notOfClass (Or.inl rfl)).elim

theorem Instruction.isClassless_of_unmarked {instruction : Instruction}
    (straight : instruction.isStraight = true) (unmarked : instruction.isMarked = false) :
    instruction.isClassless = true := by
  obtain ⟨opcode, operand⟩ := instruction
  cases opcode <;> first | rfl | (cases straight; done) | cases unmarked

/-- The code of an expression of the program itself. -/
theorem Traced.programmed {session : Session} {mentions : List Mention} {unit grown : CodeUnit}
    (traced : Traced session none mentions unit grown) : Programmed [] unit grown := by
  obtain ⟨constants, isPool, isOf⟩ := traced.constants
  obtain ⟨code, isCode, straight, standsFor⟩ := traced.code
  refine ⟨traced.poolFits, ⟨constants, isPool, fun constant member => ?_⟩,
    ⟨code, isCode, fun pool isLonger => announces_of_classless fun instruction member => ?_⟩⟩
  · rcases isOf constant member with isScalar | ⟨_, _, _, rfl, _, isBody⟩
    · exact .scalar isScalar
    · exact .block isBody
  · cases marked : instruction.isMarked with
    | false =>
        exact Instruction.isClassless_of_unmarked (straight instruction member) marked
    | true =>
        have kept : instruction ∈ code.filter Instruction.isMarked :=
          List.mem_filter.mpr ⟨member, marked⟩
        obtain ⟨index, inside, rfl⟩ := List.getElem_of_mem kept
        obtain ⟨sameLength, related⟩ := List.forall₂_iff_get.mp (standsFor pool isLonger)
        exact (related index (sameLength ▸ inside) inside).isClassless

theorem Programmed.refl {unit : CodeUnit} (poolFits : unit.PoolFits) : Programmed [] unit unit := by
  have traced : Traced .initial none [] unit unit := .refl poolFits
  exact traced.programmed

/-- The definition of a class: its descriptor in the pool, and the instruction that creates it. -/
theorem programmed_define {source : LoweredClass} {unit between : CodeUnit} {index : Nat}
    (poolFits : unit.PoolFits)
    (added : addConstant (.classDescriptor source.descriptor) unit = .ok (index, between)) :
    Programmed [source] unit (between.add (.indexed .defineClass index)) := by
  obtain ⟨small, found, betweenFits, sameCode, pools⟩ := addConstant_ok poolFits added
  refine ⟨betweenFits, ?_, ⟨[.indexed .defineClass index], ?_, ?_⟩⟩
  · rcases pools with same | longer
    · exact ⟨[], by rw [List.append_nil]; exact same, fun _ impossible =>
        (List.not_mem_nil impossible).elim⟩
    · exact ⟨[.classDescriptor source.descriptor], longer,
        List.forall_mem_singleton.mpr (.classDescriptor List.mem_cons_self)⟩
  · rw [← sameCode]
    exact Array.toList_push
  · intro pool isLonger
    exact .define small (found_in_longer found isLonger) .nil

theorem Session.classes_declareAll {session extended : Session} {names : List String}
    {result : Except CompileError Unit}
    (declared : session.declareAll names = (extended, result)) :
    extended.classes = session.classes := by
  induction names generalizing session with
  | nil =>
      cases declared
      rfl
  | cons name rest inductionHypothesis =>
      unfold Session.declareAll at declared
      split at declared
      · cases declared
        rfl
      · rw [inductionHypothesis declared]
        unfold Session.declare
        split <;> rfl

theorem Session.topLevel_belongs (session : Session) : session.topLevel.Belongs session none :=
  ⟨rfl, rfl⟩

/-- The definition in a statement. -/
def Stmt.definition? : Stmt → Option ClassDef
  | .define definition => some definition
  | .expr _ | .return _ | .declare _ => none

/-- The classes that a program defines, in order. -/
def Program.definitions (program : Program) : List ClassDef := program.filterMap Stmt.definition?

/-- What is known about a program that was lowered: the classes that it defines, and its code. -/
structure DefinedBy (program : Program) (session final : Session) (unit grown : CodeUnit)
    (sources : List LoweredClass) : Prop where
  chained : Chained session sources final
  written : sources.map LoweredClass.definition = program.definitions
  fieldsFit : fieldsFitInProgram session program = true →
    ∀ source ∈ sources, fieldsFit source.shape.fields = true
  programmed : Programmed sources unit grown

theorem DefinedBy.cons {rest : Program} {session extended final : Session}
    {unit between grown : CodeUnit} {sources : List LoweredClass} {statement : Stmt}
    (definedBy : DefinedBy rest extended final between grown sources)
    (noDefinition : statement.definition? = none) (same : session.classes = extended.classes)
    (sameFields : fieldsFitInProgram session (statement :: rest) =
      fieldsFitInProgram extended rest)
    (first : Programmed [] unit between) :
    DefinedBy (statement :: rest) session final unit grown sources := by
  refine ⟨definedBy.chained.congr same, ?_, ?_, first.trans definedBy.programmed⟩
  · rw [definedBy.written, Program.definitions, Program.definitions,
      List.filterMap_cons_none noDefinition]
  · rw [sameFields]
    exact definedBy.fieldsFit

theorem DefinedBy.define {source : LoweredClass} {rest : Program} {final : Session}
    {unit between grown : CodeUnit} {sources : List LoweredClass}
    (definedBy : DefinedBy rest source.after final between grown sources)
    (isAfter : (lowerClass source.before source.definition).1 = source.after)
    (first : Programmed [source] unit between) :
    DefinedBy (.define source.definition :: rest) source.before final unit grown
      (source :: sources) := by
  refine ⟨.cons rfl definedBy.chained, ?_, fun fits => ?_, first.trans definedBy.programmed⟩
  · rw [List.map_cons, definedBy.written]
    rfl
  · rw [fieldsFitInProgram, source.isShape, isAfter, Bool.and_eq_true_iff] at fits
    exact List.forall_mem_cons.mpr ⟨fits.1, definedBy.fieldsFit fits.2⟩

theorem definedBy_program {leading : Bool} {session final : Session} {unit grown : CodeUnit}
    {program : Program} (poolFits : unit.PoolFits)
    (lowered : lowerProgramFrom leading session unit program = (final, .ok grown)) :
    ∃ sources, DefinedBy program session final unit grown sources := by
  induction program generalizing leading session unit with
  | nil =>
      have isFinal : session = final := congrArg Prod.fst lowered
      refine ⟨[], .nil (congrArg _ isFinal), rfl,
        fun _ _ impossible => (List.not_mem_nil impossible).elim, ?_⟩
      rcases lowerProgramFrom_nil_ok lowered with ⟨_, rfl⟩ | ⟨_, rfl⟩
      · exact .refl poolFits
      · have traced : Traced session none [] unit _ := traced_emptyBody poolFits .topLevel
        exact traced.programmed
  | cons statement rest inductionHypothesis =>
      cases statement with
      | declare names =>
          obtain ⟨_, extended, declared, restLowered⟩ := lowerProgramFrom_declare_ok lowered
          obtain ⟨sources, definedBy⟩ := inductionHypothesis poolFits restLowered
          refine ⟨sources, definedBy.cons rfl (Session.classes_declareAll declared).symm ?_
            (.refl poolFits)⟩
          rw [fieldsFitInProgram, declared]
      | define definition =>
          obtain ⟨extended, descriptor, index, between, classLowered, added, restLowered⟩ :=
            lowerProgramFrom_define_ok lowered
          obtain ⟨source, rfl, rfl, rfl, rfl⟩ := LoweredClass.exists_of_lowerClass classLowered
          have defined := programmed_define poolFits added
          have dropped : Traced source.before none [] _ _ :=
            (Traced.refl defined.poolFits).addAfterStatement rest.isEmpty
          obtain ⟨sources, definedBy⟩ := inductionHypothesis dropped.poolFits restLowered
          exact ⟨source :: sources, definedBy.define (congrArg Prod.fst classLowered)
            (defined.trans dropped.programmed)⟩
      | expr value =>
          obtain ⟨between, valueLowered, restLowered⟩ := lowerProgramFrom_expr_ok lowered
          have dropped := (traced_expr session.topLevel_belongs poolFits value
            valueLowered).addAfterStatement rest.isEmpty
          obtain ⟨sources, definedBy⟩ := inductionHypothesis dropped.poolFits restLowered
          exact ⟨sources, definedBy.cons rfl rfl rfl dropped.programmed⟩
      | «return» value =>
          obtain ⟨between, valueLowered, restLowered⟩ := lowerProgramFrom_return_ok lowered
          have returned := (traced_expr session.topLevel_belongs poolFits value
            valueLowered).addReturn .topLevel
          obtain ⟨sources, definedBy⟩ := inductionHypothesis returned.poolFits restLowered
          exact ⟨sources, definedBy.cons rfl rfl rfl returned.programmed⟩

theorem Announces.classless_or_define {pool : List Constant} {code : List Instruction}
    {sources : List LoweredClass} (announces : Announces pool code sources) :
    ∀ instruction ∈ code, instruction.isClassless = true ∨ instruction.opcode = .defineClass := by
  induction announces with
  | nil =>
      exact fun _ impossible => (List.not_mem_nil impossible).elim
  | other classless _ inductionHypothesis =>
      exact List.forall_mem_cons.mpr ⟨Or.inl classless, inductionHypothesis⟩
  | define _ _ _ inductionHypothesis =>
      exact List.forall_mem_cons.mpr ⟨Or.inr rfl, inductionHypothesis⟩

theorem Announces.mem_pool {pool : List Constant} {code : List Instruction}
    {sources : List LoweredClass} (announces : Announces pool code sources) :
    ∀ source ∈ sources, .classDescriptor source.descriptor ∈ pool := by
  induction announces with
  | nil =>
      exact fun _ impossible => (List.not_mem_nil impossible).elim
  | other _ _ inductionHypothesis =>
      exact inductionHypothesis
  | define _ found _ inductionHypothesis =>
      exact List.forall_mem_cons.mpr ⟨List.mem_of_getElem? found, inductionHypothesis⟩

theorem LoweredClass.mem_methods_of_methodsOn {source : LoweredClass} {classSide : Bool}
    {method : MethodDescriptor} (member : method ∈ source.methodsOn classSide) :
    method ∈ source.descriptor.methods ++ source.descriptor.classMethods := by
  cases classSide with
  | false =>
      exact List.mem_append_left _ member
  | true =>
      exact List.mem_append_right _ member

theorem Session.definedBy_compile {session final : Session} {program : Program} {unit : CodeUnit}
    (compiled : session.compile program = (final, .ok unit)) :
    ∃ sources, DefinedBy program session final .empty unit sources :=
  definedBy_program CodeUnit.poolFits_empty (Session.compile_eq_ok.mp compiled)

namespace DefinedBy

variable {program : Program} {session final : Session} {unit : CodeUnit}
  {sources : List LoweredClass}

theorem ofProgram (definedBy : DefinedBy program session final .empty unit sources) :
    ∀ constant ∈ unit.constants, constant.OfProgram sources := by
  obtain ⟨added, isPool, ofProgram⟩ := definedBy.programmed.constants
  rw [show unit.constants = added from isPool]
  exact ofProgram

theorem announces (definedBy : DefinedBy program session final .empty unit sources) :
    Announces unit.constants unit.code.toList sources := by
  obtain ⟨added, isCode, announces⟩ := definedBy.programmed.code
  rw [show unit.code.toList = added from isCode]
  exact announces unit.constants (List.prefix_refl _)

/-- A method of a program assigns only to what the program assigns to. -/
theorem spares_method {reserved : String → Prop} {source : LoweredClass} {classSide : Bool}
    {method : MethodDescriptor} (definedBy : DefinedBy program session final .empty unit sources)
    (spares : unit.Spares reserved) (member : source ∈ sources)
    (isMethod : method ∈ source.methodsOn classSide) : method.body.Spares reserved :=
  spares.method (definedBy.announces.mem_pool source member)
    (LoweredClass.mem_methods_of_methodsOn isMethod)

end DefinedBy

end Missive
