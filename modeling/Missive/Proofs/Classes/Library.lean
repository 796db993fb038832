import Missive.Proofs.Classes.Definitions
import Missive.Proofs.Safety.Typing

/-!
# Classes that a machine knows

Every class in the store was built from a definition that was compiled, and its superclass is the
class that the session of that definition describes under the name of the superclass.  So the
fields of a class start with those of its superclass, and an instance has the fields of every class
whose methods it runs.

The code in the store is that of methods of known classes and of blocks in them, or of blocks of a
program itself.  It assigns to no global that has a reserved name.

Nothing is said about objects that have gone away, so collections spoil none of this.
-/

namespace Missive

/-! ## Class variables as a session sees them -/

/-- The session knows that the class, or one above it, declares the class variable. -/
inductive Session.Sees (session : Session) (variableName : String) : (className : String) → Prop
  | own {className : String} {shape : Shape} : session.shape? className = some shape →
      variableName ∈ shape.classVars → Sees session variableName className
  | above {className superclass : String} {shape : Shape} :
      session.shape? className = some shape → shape.superclass = some superclass →
      Sees session variableName superclass → Sees session variableName className

theorem Session.Sees.congr {session other : Session} {variableName className : String}
    (sees : session.Sees variableName className) (same : other.classes = session.classes) :
    other.Sees variableName className := by
  have sameShape : ∀ name, other.shape? name = session.shape? name := by
    intro name
    rw [Session.shape?, Session.shape?, same]
  induction sees with
  | own known declared =>
      exact .own ((sameShape _).trans known) declared
  | above known isSuperclass _ inductionHypothesis =>
      exact .above ((sameShape _).trans known) isSuperclass inductionHypothesis

/-- Neither the class itself nor a class that is known has it as superclass, so that what is known
about other classes stays. -/
structure LoweredClass.IsLeaf (source : LoweredClass) : Prop where
  notOwn : source.definition.superclass ≠ some source.name
  notOthers : ∀ name shape, source.before.shape? name = some shape →
    shape.superclass ≠ some source.name

namespace LoweredClass

variable {source : LoweredClass} {variableName className : String}

theorem shape?_after_of_ne (source : LoweredClass) {name : String} (other : name ≠ source.name) :
    source.after.shape? name = source.before.shape? name := by
  rw [shape?_after, if_neg other]

theorem IsLeaf.sees_after_iff (isLeaf : source.IsLeaf) (other : className ≠ source.name) :
    source.after.Sees variableName className ↔ source.before.Sees variableName className := by
  constructor
  · intro sees
    induction sees with
    | own known declared =>
        rw [source.shape?_after_of_ne other] at known
        exact .own known declared
    | above known isSuperclass _ inductionHypothesis =>
        rw [source.shape?_after_of_ne other] at known
        refine .above known isSuperclass (inductionHypothesis ?_)
        rintro rfl
        exact isLeaf.notOthers _ _ known isSuperclass
  · intro sees
    induction sees with
    | own known declared =>
        rw [← source.shape?_after_of_ne other] at known
        exact .own known declared
    | above known isSuperclass _ inductionHypothesis =>
        have notNew := isLeaf.notOthers _ _ known
        rw [← source.shape?_after_of_ne other] at known
        refine .above known isSuperclass (inductionHypothesis ?_)
        rintro rfl
        exact notNew isSuperclass

theorem IsLeaf.sees_name_iff (isLeaf : source.IsLeaf) :
    source.after.Sees variableName source.name ↔ variableName ∈ source.definition.classVars ∨
      ∃ superclass, source.definition.superclass = some superclass ∧
        source.before.Sees variableName superclass := by
  have known := source.shape?_after_name
  constructor
  · intro sees
    cases sees with
    | own isKnown declared =>
        rw [known] at isKnown
        cases isKnown
        exact Or.inl (source.shape_classVars ▸ declared)
    | @above _ superclass _ isKnown isSuperclass higher =>
        rw [known] at isKnown
        cases isKnown
        rw [source.shape_superclass] at isSuperclass
        refine Or.inr ⟨superclass, isSuperclass, (isLeaf.sees_after_iff ?_).mp higher⟩
        rintro rfl
        exact isLeaf.notOwn isSuperclass
  · rintro (declared | ⟨superclass, isSuperclass, higher⟩)
    · exact .own known (source.shape_classVars.symm ▸ declared)
    · have different : superclass ≠ source.name := by
        rintro rfl
        exact isLeaf.notOwn isSuperclass
      exact .above known (source.shape_superclass.trans isSuperclass)
        ((isLeaf.sees_after_iff different).mpr higher)

end LoweredClass

/-! ## Libraries -/

/-- The classes that a machine may have. -/
structure Library where
  known : LoweredClass → Prop
  /-- The names to which no code assigns. -/
  reserved : String → Prop
  /-- No class is defined again once it has a class below it. -/
  steady : Prop
  spares : ∀ {source : LoweredClass}, known source → ∀ {classSide : Bool}
    {method : MethodDescriptor}, method ∈ source.methodsOn classSide →
    method.body.Spares reserved
  isLeaf : steady → ∀ {source : LoweredClass}, known source → source.IsLeaf

/-- The class is the one that the session describes under the name: it has the same fields and, in
a steady library, the same class variables. -/
structure Library.Presents (library : Library) (session : Session) (name : String)
    (source : LoweredClass) : Prop where
  fields : ∀ shape, session.shape? name = some shape → shape.fields = source.shape.fields
  sees : library.steady → ∀ variableName,
    session.Sees variableName name ↔ source.after.Sees variableName source.name

namespace Library

variable {library : Library} {session other : Session} {name : String}
  {source older : LoweredClass}

theorem presents_self (library : Library) (source : LoweredClass) :
    library.Presents source.after source.name source := by
  refine ⟨fun shape known => ?_, fun _ _ => Iff.rfl⟩
  rw [source.shape?_after_name] at known
  cases known
  rfl

/-- What a session says about the other classes stays. -/
theorem Presents.after (presents : library.Presents source.before name older)
    (known : library.known source) (different : name ≠ source.name) :
    library.Presents source.after name older := by
  refine ⟨fun shape isKnown => ?_, fun steady variableName => ?_⟩
  · rw [source.shape?_after_of_ne different] at isKnown
    exact presents.fields shape isKnown
  · rw [(library.isLeaf steady known).sees_after_iff different]
    exact presents.sees steady variableName

theorem Presents.congr (presents : library.Presents session name source)
    (same : other.classes = session.classes) : library.Presents other name source := by
  refine ⟨fun shape known => ?_, fun steady variableName => ?_⟩
  · rw [Session.shape?, same] at known
    exact presents.fields shape known
  · rw [← presents.sees steady variableName]
    exact ⟨fun sees => sees.congr same.symm, fun sees => sees.congr same⟩

end Library

/-! ## Classes in the store -/

namespace Store

/-- The object with the identity is a class built from the source, unless it has gone away.  Its
superclass, in turn, is built from the class that the session of the source describes under the
name of the superclass. -/
inductive Builds (library : Library) (store : Store) : ObjectId → LoweredClass → Prop
  | gone {id : ObjectId} {source : LoweredClass} : id.index < store.cells.size →
      store.get? id = none → Builds library store id source
  | top {id : ObjectId} {source : LoweredClass} {definition : ClassObject} :
      store.class? id = some definition → definition.BuiltFrom source →
      source.definition.superclass = none → definition.superclass = none →
      Builds library store id source
  | derived {id parent : ObjectId} {source older : LoweredClass} {definition : ClassObject}
      {name : String} : store.class? id = some definition → definition.BuiltFrom source →
      source.definition.superclass = some name → definition.superclass = some parent →
      parent.index < id.index → library.known older → library.Presents source.before name older →
      Builds library store parent older → Builds library store id source

variable {library : Library} {store newer : Store} {id : ObjectId} {source : LoweredClass}

theorem Builds.index_lt (builds : store.Builds library id source) :
    id.index < store.cells.size := by
  cases builds with
  | gone old _ =>
      exact old
  | top found _ _ _ | derived found _ _ _ _ _ _ _ =>
      exact index_lt_of_get? (get?_of_class? found)

theorem class?_of_preserves (preserves : store.Preserves newer) {definition : ClassObject}
    (found : store.class? id = some definition) :
    newer.get? id = none ∨ ∃ other, newer.class? id = some other ∧
      (Object.classObject other).cleared = (Object.classObject definition).cleared := by
  have present := get?_of_class? found
  cases after : newer.get? id with
  | none =>
      exact Or.inl rfl
  | some object =>
      obtain ⟨before, foundBefore, same⟩ := preserves.same (index_lt_of_get? present) after
      rw [present] at foundBefore
      cases foundBefore
      obtain ⟨other, rfl, _⟩ := Object.eq_classObject_of_cleared same
      exact Or.inr ⟨other, class?_of_get? after, same⟩

theorem Builds.preserves (builds : store.Builds library id source)
    (preserves : store.Preserves newer) : newer.Builds library id source := by
  induction builds with
  | @gone id source old isGone =>
      refine .gone (Nat.lt_of_lt_of_le old preserves.size_le) ?_
      cases after : newer.get? id with
      | none =>
          rfl
      | some object =>
          obtain ⟨_, impossible, _⟩ := preserves.same old after
          rw [isGone] at impossible
          cases impossible
  | top found builtFrom isTop noSuperclass =>
      have old := index_lt_of_get? (get?_of_class? found)
      rcases class?_of_preserves preserves found with isGone | ⟨other, foundAfter, same⟩
      · exact .gone (Nat.lt_of_lt_of_le old preserves.size_le) isGone
      · obtain ⟨_, ⟨⟩, _, sameSuperclass, _⟩ := Object.eq_classObject_of_cleared same
        exact .top foundAfter (builtFrom.of_cleared same) isTop
          (sameSuperclass.trans noSuperclass)
  | derived found builtFrom isNamed isSuperclass isOlder known presents _ inductionHypothesis =>
      have old := index_lt_of_get? (get?_of_class? found)
      rcases class?_of_preserves preserves found with isGone | ⟨other, foundAfter, same⟩
      · exact .gone (Nat.lt_of_lt_of_le old preserves.size_le) isGone
      · obtain ⟨_, ⟨⟩, _, sameSuperclass, _⟩ := Object.eq_classObject_of_cleared same
        exact .derived foundAfter (builtFrom.of_cleared same) isNamed
          (sameSuperclass.trans isSuperclass) isOlder known presents inductionHypothesis

/-- The value is an instance of a class with at least the fields of the source, unless it has gone
away. -/
def InstanceOf (library : Library) (store : Store) (source : LoweredClass) (value : Value) :
    Prop :=
  ∃ id, value = .ref id ∧ id.index < store.cells.size ∧
    ∀ object, store.get? id = some object → ∃ classId values classSource,
      object = .record classId values ∧ store.Builds library classId classSource ∧
        source.shape.fields <+: classSource.shape.fields

variable {value : Value}

theorem InstanceOf.preserves (isInstance : store.InstanceOf library source value)
    (preserves : store.Preserves newer) : newer.InstanceOf library source value := by
  obtain ⟨id, isRef, old, isRecord⟩ := isInstance
  refine ⟨id, isRef, Nat.lt_of_lt_of_le old preserves.size_le, fun object found => ?_⟩
  obtain ⟨before, foundBefore, same⟩ := preserves.same old found
  obtain ⟨classId, values, classSource, rfl, builds, hasFields⟩ := isRecord before foundBefore
  obtain ⟨others, rfl, _⟩ := Object.eq_record_of_cleared same
  exact ⟨classId, others, classSource, rfl, builds.preserves preserves, hasFields⟩

/-- An instance has the fields of every class above its own. -/
theorem InstanceOf.higher {higher : LoweredClass}
    (isInstance : store.InstanceOf library source value)
    (hasFields : higher.shape.fields <+: source.shape.fields) :
    store.InstanceOf library higher value := by
  obtain ⟨id, isRef, old, isRecord⟩ := isInstance
  refine ⟨id, isRef, old, fun object found => ?_⟩
  obtain ⟨classId, values, classSource, isObject, builds, inFields⟩ := isRecord object found
  exact ⟨classId, values, classSource, isObject, builds, hasFields.trans inFields⟩

end Store

/-! ## Objects -/

/-- The superclass of a class that is there is built as the session of the source says. -/
inductive Descends (library : Library) (store : Store) (id : ObjectId) (source : LoweredClass) :
    Option ObjectId → Prop
  | top : source.definition.superclass = none → Descends library store id source none
  | derived {name : String} {parent : ObjectId} {older : LoweredClass} :
      source.definition.superclass = some name → parent.index < id.index →
      library.known older → library.Presents source.before name older →
      store.Builds library parent older → Descends library store id source (some parent)

namespace Store

variable {library : Library} {store : Store} {id : ObjectId} {source : LoweredClass}
  {definition : ClassObject}

theorem Builds.of_class? (builds : store.Builds library id source)
    (found : store.class? id = some definition) :
    definition.BuiltFrom source ∧ Descends library store id source definition.superclass := by
  cases builds with
  | gone _ isGone =>
      rw [get?_of_class? found] at isGone
      cases isGone
  | top isFound builtFrom isTop noSuperclass =>
      rw [found] at isFound
      cases isFound
      exact ⟨builtFrom, noSuperclass ▸ .top isTop⟩
  | derived isFound builtFrom isNamed isSuperclass isOlder known presents builds =>
      rw [found] at isFound
      cases isFound
      exact ⟨builtFrom, isSuperclass ▸ .derived isNamed isOlder known presents builds⟩

theorem builds_of_class? (found : store.class? id = some definition)
    (builtFrom : definition.BuiltFrom source)
    (descends : Descends library store id source definition.superclass) :
    store.Builds library id source := by
  generalize isSuperclass : definition.superclass = superclass at descends
  cases descends with
  | top isTop =>
      exact .top found builtFrom isTop isSuperclass
  | derived isNamed isOlder known presents builds =>
      exact .derived found builtFrom isNamed isSuperclass isOlder known presents builds

end Store

/-- The code of a method, or of a block inside it, that may run for the receiver. -/
structure MethodCode (library : Library) (store : Store) (receiver : Value) (id : ObjectId)
    (classSide : Bool) (unit : CodeUnit) (source : LoweredClass) (written : MethodDef)
    (statements : List Stmt) : Prop where
  known : library.known source
  builds : store.Builds library id source
  isWritten : written ∈ source.definition.methodsOn classSide
  inside : Inside written.body statements
  body : Body source.after (some (source.owner classSide)) statements unit
  isInstance : classSide = false → store.InstanceOf library source receiver

/-- The code may run with the receiver and the class. -/
inductive Written (library : Library) (store : Store) (receiver : Value) :
    (owner : Option ObjectId) → (classSide : Bool) → CodeUnit → Prop
  | program {session : Session} {statements : List Stmt} {classSide : Bool} {unit : CodeUnit} :
      Body session none statements unit → unit.Spares library.reserved →
      Written library store receiver none classSide unit
  | method {id : ObjectId} {classSide : Bool} {unit : CodeUnit} {source : LoweredClass}
      {written : MethodDef} {statements : List Stmt} :
      MethodCode library store receiver id classSide unit source written statements →
      unit.Spares library.reserved → Written library store receiver (some id) classSide unit

/-- The object has only code of known classes and of programs. -/
inductive Object.Sound (library : Library) (store : Store) (id : ObjectId) : Object → Prop
  | plain {object : Object} : object.isPlain = true → Sound library store id object
  | block {closure : Closure} :
      Written library store closure.receiver closure.owner closure.classSide closure.body →
      Sound library store id (.block closure)
  | classObject {definition : ClassObject} {source : LoweredClass} : library.known source →
      store.Builds library id source → Sound library store id (.classObject definition)

section Objects

variable {library : Library} {store newer : Store} {id : ObjectId} {source : LoweredClass}
  {receiver : Value} {owner : Option ObjectId} {classSide : Bool} {unit : CodeUnit}

theorem Descends.preserves {superclass : Option ObjectId}
    (descends : Descends library store id source superclass) (preserves : store.Preserves newer) :
    Descends library newer id source superclass := by
  cases descends with
  | top isTop =>
      exact .top isTop
  | derived isSuperclass isOlder known presents builds =>
      exact .derived isSuperclass isOlder known presents (builds.preserves preserves)

/-- A class has the fields of its superclass first. -/
theorem Library.Presents.fields_prefix {name : String} {older : LoweredClass}
    (presents : library.Presents source.before name older)
    (isSuperclass : source.definition.superclass = some name) :
    older.shape.fields <+: source.shape.fields := by
  obtain ⟨shape, isShape⟩ :=
    Option.isSome_iff_exists.mp (source.shape_of_definition.1 name isSuperclass)
  have sameFields : source.inherited = older.shape.fields := by
    rw [LoweredClass.inherited, isSuperclass, Option.bind_some, isShape]
    exact presents.fields shape isShape
  rw [source.shape_fields, sameFields]
  exact List.prefix_append _ _

theorem MethodCode.preserves {written : MethodDef} {statements : List Stmt}
    (code : MethodCode library store receiver id classSide unit source written statements)
    (preserves : store.Preserves newer) :
    MethodCode library newer receiver id classSide unit source written statements :=
  ⟨code.known, code.builds.preserves preserves, code.isWritten, code.inside, code.body,
    fun onInstances => (code.isInstance onInstances).preserves preserves⟩

namespace Written

theorem preserves (written : Written library store receiver owner classSide unit)
    (preserves : store.Preserves newer) :
    Written library newer receiver owner classSide unit := by
  cases written with
  | program isBody spares =>
      exact .program isBody spares
  | method code spares =>
      exact .method (code.preserves preserves) spares

theorem spares (written : Written library store receiver owner classSide unit) :
    unit.Spares library.reserved := by
  cases written with
  | program _ spares =>
      exact spares
  | method _ spares =>
      exact spares

theorem method_or_program (written : Written library store receiver owner classSide unit) :
    (∃ id source method statements, owner = some id ∧
        MethodCode library store receiver id classSide unit source method statements) ∨
      ∃ session statements, Body session none statements unit := by
  cases written with
  | program isBody _ =>
      exact Or.inr ⟨_, _, isBody⟩
  | method code _ =>
      exact Or.inl ⟨_, _, _, _, rfl, code⟩

theorem exists_body (written : Written library store receiver owner classSide unit) :
    ∃ session owner statements, Body session owner statements unit := by
  rcases written.method_or_program with ⟨_, _, _, _, _, code⟩ | ⟨_, _, isBody⟩
  · exact ⟨_, _, _, code.body⟩
  · exact ⟨_, _, _, isBody⟩

/-- Methods and blocks define no class. -/
theorem not_define (written : Written library store receiver owner classSide unit)
    {instruction : Instruction} (member : instruction ∈ unit.code.toList) :
    instruction.opcode ≠ .defineClass := by
  intro isDefinition
  obtain ⟨_, _, _, isBody⟩ := written.exists_body
  have straight := isBody.isStraight instruction member
  unfold Instruction.isStraight at straight
  rw [isDefinition] at straight
  cases straight

theorem block (written : Written library store receiver owner classSide unit) {body : CodeUnit}
    (member : .block body ∈ unit.constants) :
    Written library store receiver owner classSide body := by
  cases written with
  | program isBody spares =>
      obtain ⟨_, _, _, isInner⟩ := isBody.block member
      exact .program isInner (spares.block member)
  | method code spares =>
      obtain ⟨parameters, inner, mentioned, isInner⟩ := code.body.block member
      exact .method ⟨code.known, code.builds, code.isWritten,
        code.inside.tail ⟨parameters, mentioned⟩, isInner, code.isInstance⟩ (spares.block member)

end Written

namespace Object.Sound

variable {object : Object}

theorem preserves (sound : object.Sound library store id) (preserves : store.Preserves newer) :
    object.Sound library newer id := by
  cases sound with
  | plain isPlain =>
      exact .plain isPlain
  | block written =>
      exact .block (written.preserves preserves)
  | classObject known builds =>
      exact .classObject known (builds.preserves preserves)

theorem of_cleared {before : Object} (sound : before.Sound library store id)
    (same : object.cleared = before.cleared) : object.Sound library store id := by
  cases sound with
  | plain isPlain =>
      refine .plain ?_
      rw [← Object.isPlain_cleared, same, Object.isPlain_cleared]
      exact isPlain
  | block written =>
      obtain rfl := Object.eq_block_of_cleared same
      exact .block written
  | classObject known builds =>
      obtain ⟨other, rfl, _⟩ := Object.eq_classObject_of_cleared same
      exact .classObject known builds

end Object.Sound

end Objects

/-! ## Stores -/

/-- Every object has only code of known classes and of programs, and every instance has as many
values as its class has fields. -/
structure Store.Sound (library : Library) (store : Store) : Prop where
  measured : store.Measured
  objects : ∀ {id object}, store.get? id = some object → object.Sound library store id

namespace Store

theorem exists_class?_of_mem_lineage {store : Store} {start : ObjectId}
    {entry : ObjectId × ClassObject} (member : entry ∈ store.lineage start) :
    ∃ first, store.class? start = some first := by
  rw [Store.lineage] at member
  cases found : store.class? start with
  | none =>
      rw [found] at member
      exact (List.not_mem_nil member).elim
  | some first =>
      exact ⟨first, rfl⟩

theorem mem_lineage_of_lookup {store : Store} {classSide : Bool} {selector : String}
    {start owner : ObjectId} {definition : ClassObject} {method : MethodDescriptor}
    (found : store.lookup classSide selector start = some (owner, definition, method)) :
    (owner, definition) ∈ store.lineage start := by
  obtain ⟨entry, member, answered⟩ := List.exists_of_findSome?_eq_some found
  obtain ⟨_, _, same⟩ := Option.map_eq_some_iff.mp answered
  cases same
  exact member

namespace Sound

variable {library : Library} {store newer : Store}

theorem inherits (sound : store.Sound library) (inherits : store.Inherits newer) :
    newer.Sound library := by
  refine ⟨inherits.measured sound.measured, fun {id object} found => ?_⟩
  rcases inherits.origin id object found with ⟨before, foundBefore, same⟩ | ⟨_, isPlain⟩
  · exact ((sound.objects foundBefore).of_cleared same).preserves inherits.preserves
  · exact .plain isPlain

theorem alloc (sound : store.Sound library) {object : Object} (fits : store.Fits object)
    (isSound : object.Sound library (store.alloc object).2 ⟨store.cells.size⟩) :
    (store.alloc object).2.Sound library := by
  refine ⟨sound.measured.alloc fits, fun {id found} isFound => ?_⟩
  rw [Store.get?_alloc] at isFound
  split at isFound
  · rename_i new
    cases isFound
    exact new ▸ isSound
  · exact (sound.objects isFound).preserves (store.preserves_alloc object)

theorem exists_source (sound : store.Sound library) {id : ObjectId} {definition : ClassObject}
    (found : store.class? id = some definition) :
    ∃ source, library.known source ∧ store.Builds library id source := by
  cases sound.objects (get?_of_class? found) with
  | plain impossible =>
      cases impossible
  | classObject known builds =>
      exact ⟨_, known, builds⟩

theorem fields_of_superclass (sound : store.Sound library) {id parent : ObjectId}
    {definition above : ClassObject} (found : store.class? id = some definition)
    (isSuperclass : definition.superclass = some parent)
    (foundAbove : store.class? parent = some above) : above.fields <+: definition.fields := by
  obtain ⟨source, _, isBuilt⟩ := sound.exists_source found
  obtain ⟨builtFrom, descends⟩ := isBuilt.of_class? found
  rw [isSuperclass] at descends
  cases descends with
  | derived named _ _ presents builds =>
      rw [builtFrom.fields, (builds.of_class? foundAbove).1.fields]
      exact presents.fields_prefix named

/-- A class has the fields of all classes above it. -/
theorem fields_of_mem_lineage (sound : store.Sound library) {start : ObjectId}
    {first : ClassObject} (found : store.class? start = some first)
    {entry : ObjectId × ClassObject} (member : entry ∈ store.lineage start) :
    entry.2.fields <+: first.fields := by
  induction place : start.index using Nat.strongRecOn generalizing start first with
  | ind index inductionHypothesis =>
      rw [Store.lineage, found] at member
      rcases List.mem_cons.mp member with rfl | above
      · exact List.prefix_refl _
      · split at above
        · exact (List.not_mem_nil above).elim
        · rename_i parent isSuperclass
          split at above
          · rename_i isOlder
            obtain ⟨next, foundNext⟩ := exists_class?_of_mem_lineage above
            exact (inductionHypothesis parent.index (place ▸ isOlder) foundNext above rfl).trans
              (sound.fields_of_superclass found isSuperclass foundNext)
          · exact (List.not_mem_nil above).elim

/-- A method that is found may run, if the receiver is an instance of the class at which the search
started. -/
theorem written_of_lookup (sound : store.Sound library) {classSide : Bool} {selector : String}
    {start owner : ObjectId} {definition : ClassObject} {method : MethodDescriptor}
    (found : store.lookup classSide selector start = some (owner, definition, method))
    {receiver : Value} (receives : classSide = false → ∀ first source,
      store.class? start = some first → store.Builds library start source →
        store.InstanceOf library source receiver) :
    Written library store receiver (some owner) classSide method.body := by
  obtain ⟨isOwner, isMethod⟩ := method?_of_lookup found
  obtain ⟨source, known, builds⟩ := sound.exists_source isOwner
  have builtFrom := (builds.of_class? isOwner).1
  have member := builtFrom.method_mem isMethod
  obtain ⟨written, isWritten, isBody⟩ := LoweredClass.body_of_method member
  refine .method ⟨known, builds, isWritten, .refl, isBody, ?_⟩ (library.spares known member)
  intro onInstances
  have inLineage := mem_lineage_of_lookup found
  obtain ⟨first, isFirst⟩ := exists_class?_of_mem_lineage inLineage
  obtain ⟨firstSource, _, firstBuilds⟩ := sound.exists_source isFirst
  apply (receives onInstances first firstSource isFirst firstBuilds).higher
  rw [← builtFrom.fields, ← (firstBuilds.of_class? isFirst).1.fields]
  exact sound.fields_of_mem_lineage isFirst inLineage

end Sound

end Store

/-! ## Globals -/

theorem Globals.get?_set (globals : Globals) (name other : String) (value : Value) :
    (globals.set name value).get? other =
      if other = name then some value else globals.get? other := by
  unfold Globals.get? Globals.set
  dsimp only
  induction globals.entries with
  | nil =>
      rw [insertEntry, lookup_cons_eq_ite]
  | cons entry rest inductionHypothesis =>
      rw [insertEntry]
      split
      · rename_i sameName
        rw [lookup_cons_eq_ite, lookup_cons_eq_ite, sameName]
        split <;> rfl
      · rename_i otherName
        split
        · rw [lookup_cons_eq_ite]
        · rw [lookup_cons_eq_ite, lookup_cons_eq_ite, inductionHypothesis]
          by_cases here : other = entry.1
          · rw [if_pos here, if_pos here, if_neg (here ▸ otherName)]
          · rw [if_neg here, if_neg here]

/-- Every class that the session knows is bound to its name, and nobody assigns to the name. -/
def Globals.Binds (library : Library) (session : Session) (store : Store) (globals : Globals) :
    Prop :=
  ∀ name shape, session.shape? name = some shape → library.reserved name ∧ ∃ id source,
    globals.get? name = some (.ref id) ∧ library.known source ∧
      library.Presents session name source ∧ store.Builds library id source

namespace Globals.Binds

variable {library : Library} {session : Session} {store newer : Store} {globals : Globals}

theorem preserves (binds : globals.Binds library session store)
    (preserves : store.Preserves newer) : globals.Binds library session newer := by
  intro name shape isKnown
  obtain ⟨isReserved, id, source, isGlobal, known, presents, builds⟩ := binds name shape isKnown
  exact ⟨isReserved, id, source, isGlobal, known, presents, builds.preserves preserves⟩

theorem congr {other : Session} (binds : globals.Binds library session store)
    (same : other.classes = session.classes) : globals.Binds library other store := by
  intro name shape isKnown
  rw [Session.shape?, same] at isKnown
  obtain ⟨isReserved, id, source, isGlobal, known, presents, builds⟩ := binds name shape isKnown
  exact ⟨isReserved, id, source, isGlobal, known, presents.congr same, builds⟩

theorem assign (binds : globals.Binds library session store) {name : String}
    (notReserved : ¬ library.reserved name) (value : Value) :
    (globals.set name value).Binds library session store := by
  intro other shape isKnown
  obtain ⟨isReserved, id, source, isGlobal, rest⟩ := binds other shape isKnown
  have different : other ≠ name := by
    rintro rfl
    exact notReserved isReserved
  refine ⟨isReserved, id, source, ?_, rest⟩
  rw [Globals.get?_set, if_neg different]
  exact isGlobal

theorem define {source : LoweredClass} {id : ObjectId}
    (binds : globals.Binds library source.before store) (isReserved : library.reserved source.name)
    (known : library.known source) (builds : store.Builds library id source) :
    (globals.set source.name (.ref id)).Binds library source.after store := by
  intro name shape isKnown
  rw [Globals.get?_set]
  by_cases same : name = source.name
  · subst same
    refine ⟨isReserved, id, source, if_pos rfl, known, library.presents_self source, builds⟩
  · rw [source.shape?_after_of_ne same] at isKnown
    obtain ⟨isReserved, other, older, isGlobal, olderKnown, presents, olderBuilds⟩ :=
      binds name shape isKnown
    exact ⟨isReserved, other, older, (if_neg same).trans isGlobal, olderKnown,
      presents.after known same, olderBuilds⟩

end Globals.Binds

/-! ## New classes -/

/-- The class that the globals have under the name of the superclass. -/
inductive Globals.Superclass (globals : Globals) (store : Store) (descriptor : ClassDescriptor) :
    Option ObjectId → Prop
  | top : descriptor.superclass = none → Superclass globals store descriptor none
  | named {name : String} {parent : ObjectId} : descriptor.superclass = some name →
      globals.class? store name = some parent → Superclass globals store descriptor (some parent)

section NewClass

variable {library : Library} {store : Store} {globals : Globals} {source : LoweredClass}
  {superclass : Option ObjectId}

/-- The superclass that is found at run time is the one that was known at compile time. -/
theorem Globals.Superclass.descends (binds : globals.Binds library source.before store)
    (isSuperclass : globals.Superclass store source.descriptor superclass) :
    Descends library store ⟨store.cells.size⟩ source superclass ∧
      (match superclass.bind store.class? with
        | some parent => parent.fields
        | none => []) = source.inherited := by
  unfold LoweredClass.inherited
  cases isSuperclass with
  | top isTop =>
      rw [source.descriptor_superclass] at isTop
      refine ⟨.top isTop, ?_⟩
      rw [isTop]
      rfl
  | @named name parent isNamed found =>
      rw [source.descriptor_superclass] at isNamed
      obtain ⟨shape, isShape⟩ :=
        Option.isSome_iff_exists.mp (source.shape_of_definition.1 name isNamed)
      obtain ⟨_, id, older, isGlobal, known, presents, builds⟩ := binds name shape isShape
      obtain ⟨isBound, definition, isClass⟩ := Globals.of_class? found
      rw [isGlobal] at isBound
      cases isBound
      refine ⟨.derived isNamed builds.index_lt known presents builds, ?_⟩
      rw [isNamed, Option.bind_some, Option.bind_some, isClass, isShape]
      exact (builds.of_class? isClass).1.fields.trans (presents.fields shape isShape).symm

/-- The definition of a class at run time agrees with what is known at compile time. -/
theorem sound_newClass (sound : store.Sound library)
    (binds : globals.Binds library source.before store) (known : library.known source)
    (isReserved : library.reserved source.name)
    (isSuperclass : globals.Superclass store source.descriptor superclass) :
    let created := store.newClass source.descriptor superclass
    created.2.Sound library ∧
      (globals.set source.name (.ref created.1)).Binds library source.after created.2 := by
  obtain ⟨descends, sameFields⟩ := isSuperclass.descends binds
  let definition : ClassObject :=
    { name := source.descriptor.name
      superclass := superclass
      fields := (match superclass.bind store.class? with
        | some parent => parent.fields
        | none => []) ++ source.descriptor.fields
      methods := source.descriptor.methods
      classMethods := source.descriptor.classMethods
      classVars := source.descriptor.classVars.eraseDups.map fun name => (name, .nil) }
  have builtFrom : definition.BuiltFrom source := by
    refine ⟨source.descriptor_name, ?_, fun _ => rfl, ?_⟩
    · rw [source.shape_fields, ← sameFields, ← source.descriptor_fields]
    · rw [← source.descriptor_classVars]
      simp [definition, Function.comp_def]
  have preserves := store.preserves_alloc (.classObject definition)
  have builds : (store.alloc (.classObject definition)).2.Builds library ⟨store.cells.size⟩
      source :=
    Store.builds_of_class? (Store.class?_of_get? (Store.get?_alloc_new store _)) builtFrom
      (descends.preserves preserves)
  exact ⟨sound.alloc trivial (.classObject known builds),
    (binds.preserves preserves).define isReserved known builds⟩

end NewClass

end Missive
