import Missive.Machine.Globals

/-!
# What the operations of the store do

One equation for each operation, read through `Store.get?`.  After these nobody needs to look
at the cells.

`Object.cleared` drops what the changeable parts of an object refer to.  What is left never
changes while the object lives: its kind, the whole of a block, the class and the number of fields
of an instance, and everything about a class but the values of its class variables.  The relation
`Inherits` says that a store came from another one in this way; every operation that a running
program can cause keeps it.
-/

namespace Missive

namespace ObjectId

theorem ext_index {a b : ObjectId} (same : a.index = b.index) : a = b := by
  cases a
  cases b
  cases same
  rfl

end ObjectId

namespace ClassObject

/-- A class variable that the class declares has a value. -/
theorem isSome_lookup_of_declares {definition : ClassObject} {name : String}
    (declares : definition.declares name = true) :
    (definition.classVars.lookup name).isSome = true := by
  obtain ⟨declaration, member, same⟩ := List.any_eq_true.mp declares
  exact List.lookup_isSome_iff.mpr ⟨declaration, member, beq_iff_eq.mpr (beq_iff_eq.mp same).symm⟩

end ClassObject

namespace Store

theorem get?_eq_bind (store : Store) (id : ObjectId) :
    store.get? id = store.cells[id.index]?.bind Cell.object := by
  unfold Store.get?
  cases store.cells[id.index]? with
  | none => rfl
  | some cell => rfl

/-- An object that is there lies inside the store. -/
theorem index_lt_of_get? {store : Store} {id : ObjectId} {object : Object}
    (found : store.get? id = some object) : id.index < store.cells.size := by
  apply Nat.lt_of_not_le
  intro outside
  rw [get?_eq_bind, Array.getElem?_eq_none outside] at found
  cases found

/-! ## Equations -/

@[simp]
theorem size_alloc (store : Store) (object : Object) :
    (store.alloc object).2.cells.size = store.cells.size + 1 := by
  simp [Store.alloc]

@[simp]
theorem index_alloc (store : Store) (object : Object) :
    (store.alloc object).1 = ⟨store.cells.size⟩ := rfl

theorem get?_alloc (store : Store) (object : Object) (id : ObjectId) :
    (store.alloc object).2.get? id =
      if id = ⟨store.cells.size⟩ then some object else store.get? id := by
  by_cases new : id = ⟨store.cells.size⟩
  · rw [if_pos new, new]
    simp [get?_eq_bind, Store.alloc]
  · have different : id.index ≠ store.cells.size :=
      fun same => new (ObjectId.ext_index same)
    rw [if_neg new]
    simp [get?_eq_bind, Store.alloc, Array.getElem?_push, different]

theorem get?_alloc_new (store : Store) (object : Object) :
    (store.alloc object).2.get? (store.alloc object).1 = some object := by
  rw [get?_alloc, index_alloc, if_pos rfl]

theorem get?_alloc_cases {store : Store} {object found : Object} {id : ObjectId}
    (present : (store.alloc object).2.get? id = some found) :
    found = object ∨ store.get? id = some found := by
  rw [get?_alloc] at present
  by_cases new : id = ⟨store.cells.size⟩
  · rw [if_pos new] at present
    cases present
    exact Or.inl rfl
  · rw [if_neg new] at present
    exact Or.inr present

/-- A new object leaves those that were there. -/
theorem get?_alloc_of_some {store : Store} {id : ObjectId} {found : Object} (object : Object)
    (present : store.get? id = some found) : (store.alloc object).2.get? id = some found := by
  have inside := index_lt_of_get? present
  have different : id ≠ ⟨store.cells.size⟩ := by
    intro same
    rw [same] at inside
    exact Nat.lt_irrefl _ inside
  rw [get?_alloc, if_neg different, present]

@[simp]
theorem size_set (store : Store) (id : ObjectId) (object : Object) :
    (store.set id object).cells.size = store.cells.size := by
  simp [Store.set]

theorem get?_set_self {store : Store} {id : ObjectId} {old : Object} (object : Object)
    (present : store.get? id = some old) : (store.set id object).get? id = some object := by
  have inside := index_lt_of_get? present
  simp [get?_eq_bind, Store.set, Array.getElem?_modify, Array.getElem?_eq_getElem inside]

theorem get?_set_of_ne {store : Store} {id other : ObjectId} (object : Object)
    (different : other ≠ id) : (store.set id object).get? other = store.get? other := by
  have differentIndex : id.index ≠ other.index :=
    fun same => different (ObjectId.ext_index same.symm)
  simp [get?_eq_bind, Store.set, Array.getElem?_modify, differentIndex]

@[simp]
theorem size_erase (store : Store) (id : ObjectId) :
    (store.erase id).cells.size = store.cells.size := by
  simp [Store.erase]

theorem get?_erase (store : Store) (id other : ObjectId) :
    (store.erase id).get? other = if other = id then none else store.get? other := by
  by_cases same : other = id
  · rw [if_pos same, same]
    simp only [get?_eq_bind, Store.erase, Array.getElem?_modify, if_true]
    cases store.cells[id.index]? with
    | none => rfl
    | some cell => rfl
  · have differentIndex : id.index ≠ other.index :=
      fun sameIndex => same (ObjectId.ext_index sameIndex.symm)
    rw [if_neg same]
    simp [get?_eq_bind, Store.erase, Array.getElem?_modify, differentIndex]

@[simp]
theorem size_track (store : Store) (value : Value) :
    (store.track value).cells.size = store.cells.size := by
  unfold Store.track
  split
  · split
    · split
      · rfl
      · simp
    · rfl
  · rfl

/-- Whether an object is tracked is not seen through the store. -/
@[simp]
theorem get?_track (store : Store) (value : Value) (id : ObjectId) :
    (store.track value).get? id = store.get? id := by
  unfold Store.track
  split
  · rename_i tracked
    split
    · split
      · rfl
      · simp only [get?_eq_bind, Array.getElem?_modify]
        split
        · cases store.cells[id.index]? with
          | none => rfl
          | some cell => rfl
        · rfl
    · rfl
  · rfl

/-! ## Identities that are in use -/

theorem mem_ids {store : Store} {id : ObjectId} : id ∈ store.ids ↔ (store.get? id).isSome := by
  unfold Store.ids
  rw [List.mem_filterMap]
  constructor
  · rintro ⟨index, _, found⟩
    dsimp only at found
    split at found
    · rename_i present
      cases found
      exact present
    · cases found
  · intro present
    obtain ⟨object, found⟩ := Option.isSome_iff_exists.mp present
    refine ⟨id.index, List.mem_range.mpr (index_lt_of_get? found), ?_⟩
    dsimp only
    rw [if_pos present]

theorem length_ids_le (store : Store) : store.ids.length ≤ store.cells.size := by
  unfold Store.ids
  calc (List.filterMap _ (List.range store.cells.size)).length
      ≤ (List.range store.cells.size).length := List.length_filterMap_le _ _
    _ = store.cells.size := List.length_range

/-! ## Classes -/

theorem get?_of_class? {store : Store} {id : ObjectId} {definition : ClassObject}
    (found : store.class? id = some definition) :
    store.get? id = some (.classObject definition) := by
  unfold Store.class? at found
  split at found
  · rename_i atId
    cases found
    exact atId
  · cases found

theorem class?_of_get? {store : Store} {id : ObjectId} {definition : ClassObject}
    (found : store.get? id = some (.classObject definition)) :
    store.class? id = some definition := by
  unfold Store.class?
  rw [found]

/-- The way up from a class passes classes only. -/
theorem class?_of_mem_lineage {store : Store} {id : ObjectId} {entry : ObjectId × ClassObject}
    (member : entry ∈ store.lineage id) : store.class? entry.1 = some entry.2 := by
  induction place : id.index using Nat.strongRecOn generalizing id with
  | ind index inductionHypothesis =>
      rw [Store.lineage] at member
      cases found : store.class? id with
      | none =>
          rw [found] at member
          exact (List.not_mem_nil member).elim
      | some definition =>
          rw [found] at member
          rcases List.mem_cons.mp member with rfl | above
          · exact found
          · split at above
            · exact (List.not_mem_nil above).elim
            · rename_i parent _
              split at above
              · rename_i lower
                exact inductionHypothesis parent.index (place ▸ lower) above rfl
              · exact (List.not_mem_nil above).elim

theorem method?_of_lookup {store : Store} {classSide : Bool} {selector : String}
    {id owner : ObjectId} {definition : ClassObject} {method : MethodDescriptor}
    (found : store.lookup classSide selector id = some (owner, definition, method)) :
    store.class? owner = some definition ∧
      definition.method? classSide selector = some method := by
  obtain ⟨entry, member, answered⟩ := List.exists_of_findSome?_eq_some found
  obtain ⟨foundMethod, isMethod, same⟩ := Option.map_eq_some_iff.mp answered
  cases same
  exact ⟨class?_of_mem_lineage member, isMethod⟩

theorem class?_of_classVarOwner? {store : Store} {id holder : ObjectId}
    {definition : ClassObject} {name : String}
    (found : store.classVarOwner? id name = some (holder, definition)) :
    store.class? holder = some definition :=
  class?_of_mem_lineage (List.mem_of_find?_eq_some found)

/-- A class variable is undefined exactly where no class declares it. -/
theorem classVar?_eq_none_iff {store : Store} {id : ObjectId} {name : String} :
    store.classVar? id name = none ↔ store.classVarOwner? id name = none := by
  unfold Store.classVar?
  cases found : store.classVarOwner? id name with
  | none =>
      simp
  | some entry =>
      have declared : entry.2.declares name = true := by
        unfold Store.classVarOwner? at found
        simpa only using List.find?_some found
      obtain ⟨value, isValue⟩ :=
        Option.isSome_iff_exists.mp (ClassObject.isSome_lookup_of_declares declared)
      simp [isValue]

end Store

/-! ## What is seen of a value -/

/-- The object that is seen, with its identity. -/
def Seen.object? : Seen → Option (ObjectId × Object)
  | .array id items => some (id, .array items)
  | .dictionary id entries => some (id, .dictionary entries)
  | .block id closure => some (id, .block closure)
  | .record id classId fields => some (id, .record classId fields)
  | .classObject id definition => some (id, .classObject definition)
  | .nil | .bool _ | .int _ | .float _ | .string _ | .gone _ => none

theorem Store.of_see {store : Store} {value : Value} {id : ObjectId} {object : Object}
    (seen : (store.see value).object? = some (id, object)) :
    value = .ref id ∧ store.get? id = some object := by
  cases value with
  | ref reference =>
      unfold Store.see at seen
      cases found : store.get? reference with
      | none =>
          simp only [found] at seen
          cases seen
      | some content =>
          simp only [found] at seen
          cases content with
          | array _ | dictionary _ | block _ | record _ _ | classObject _ =>
              cases seen
              exact ⟨rfl, found⟩
  | nil | bool _ | int _ | float _ | string _ =>
      cases seen

theorem Store.of_see_record {store : Store} {value : Value} {id classId : ObjectId}
    {fields : List Value} (seen : store.see value = .record id classId fields) :
    value = .ref id ∧ store.get? id = some (.record classId fields) := by
  apply Store.of_see
  rw [seen]
  rfl

theorem Store.of_see_classObject {store : Store} {value : Value} {id : ObjectId}
    {definition : ClassObject} (seen : store.see value = .classObject id definition) :
    value = .ref id ∧ store.get? id = some (.classObject definition) := by
  apply Store.of_see
  rw [seen]
  rfl

/-- A name that is bound to a class leads to one that is there. -/
theorem Globals.of_class? {globals : Globals} {store : Store} {name : String} {id : ObjectId}
    (found : globals.class? store name = some id) :
    globals.get? name = some (.ref id) ∧ ∃ definition, store.class? id = some definition := by
  unfold Globals.class? at found
  split at found
  · rename_i seen
    cases found
    obtain ⟨value, isGlobal, isSeen⟩ := Option.map_eq_some_iff.mp seen
    obtain ⟨rfl, isClass⟩ := Store.of_see_classObject isSeen
    exact ⟨isGlobal, _, Store.class?_of_get? isClass⟩
  · cases found

/-! ## The part of an object that stays -/

namespace Object

/-- Arrays, dictionaries and instances: what the built-in messages create. -/
def isPlain : Object → Bool
  | .array _ | .dictionary _ | .record .. => true
  | .block _ | .classObject _ => false

@[simp]
theorem cleared_cleared (object : Object) : object.cleared.cleared = object.cleared := by
  cases object with
  | classObject definition => simp [Object.cleared]
  | record classId fields => simp [Object.cleared]
  | array _ | dictionary _ | block _ => rfl

@[simp]
theorem isPlain_cleared (object : Object) : object.cleared.isPlain = object.isPlain := by
  cases object <;> rfl

@[simp]
theorem cleared_set_field (classId : ObjectId) (fields : List Value) (index : Nat)
    (value : Value) :
    (Object.record classId (fields.set index value)).cleared =
      (Object.record classId fields).cleared := by
  simp [Object.cleared, List.map_const']

theorem cleared_setClassVar (definition : ClassObject) (name : String) (value : Value) :
    (Object.classObject (definition.setClassVar name value)).cleared =
      (Object.classObject definition).cleared := by
  simp only [Object.cleared, ClassObject.setClassVar, List.map_map]
  congr 2
  apply List.map_congr_left
  intro entry _
  simp only [Function.comp_apply]
  split
  · rename_i same
    rw [same]
  · rfl

theorem eq_block_of_cleared {object : Object} {closure : Closure}
    (same : object.cleared = .block closure) : object = .block closure := by
  cases object with
  | block found =>
      cases same
      rfl
  | array _ | dictionary _ | record _ _ | classObject _ =>
      cases same

theorem eq_record_of_cleared {object : Object} {classId : ObjectId} {values : List Value}
    (same : object.cleared = (Object.record classId values).cleared) :
    ∃ others, object = .record classId others ∧ others.length = values.length := by
  cases object with
  | record otherClass others =>
      simp only [Object.cleared, Object.record.injEq, List.map_const', List.replicate_inj] at same
      exact ⟨others, by rw [same.1], same.2.1⟩
  | array _ | dictionary _ | block _ | classObject _ =>
      cases same

theorem eq_classObject_of_cleared {object : Object} {definition : ClassObject}
    (same : object.cleared = (Object.classObject definition).cleared) :
    ∃ other : ClassObject, object = .classObject other ∧ other.name = definition.name ∧
      other.superclass = definition.superclass ∧ other.fields = definition.fields ∧
      other.methods = definition.methods ∧ other.classMethods = definition.classMethods ∧
      other.classVars.map Prod.fst = definition.classVars.map Prod.fst := by
  cases object with
  | classObject other =>
      injection same with same
      injection same with name superclass fields methods classMethods classVars
      refine ⟨other, rfl, name, superclass, fields, methods, classMethods, ?_⟩
      have names := congrArg (List.map Prod.fst) classVars
      rw [List.map_map, List.map_map] at names
      exact names
  | array _ | dictionary _ | block _ | record _ _ =>
      cases same

end Object

/-- The class has the name and the methods of the descriptor.  The fields of the descriptor come
after the inherited ones. -/
structure ClassObject.Follows (definition : ClassObject) (descriptor : ClassDescriptor)
    (inherited : List String) : Prop where
  name : definition.name = descriptor.name
  fields : definition.fields = inherited ++ descriptor.fields
  methods : definition.methods = descriptor.methods
  classMethods : definition.classMethods = descriptor.classMethods

namespace Store

/-- Every instance has one value for each field of its class, which is older than the instance. -/
def Measured (store : Store) : Prop :=
  ∀ id classId values, store.get? id = some (.record classId values) →
    classId.index < id.index ∧
      ∀ definition, store.class? classId = some definition →
        values.length = definition.fields.length

theorem Measured.of_origin {older newer : Store} (measured : older.Measured)
    (origin : ∀ id object, newer.get? id = some object →
      ∃ before, older.get? id = some before ∧ object.cleared = before.cleared) :
    newer.Measured := by
  intro id classId values found
  obtain ⟨before, foundBefore, same⟩ := origin id _ found
  obtain ⟨others, rfl, sameLength⟩ := Object.eq_record_of_cleared same.symm
  obtain ⟨older, sized⟩ := measured id classId others foundBefore
  refine ⟨older, fun definition isClass => ?_⟩
  obtain ⟨classBefore, classFound, sameClass⟩ := origin classId _ (get?_of_class? isClass)
  obtain ⟨other, rfl, _, _, sameFields, _⟩ := Object.eq_classObject_of_cleared sameClass.symm
  rw [← sameLength, sized other (class?_of_get? classFound), sameFields]

/-- The object is no instance, or a new one that fits its class. -/
def Fits (store : Store) : Object → Prop
  | .record classId values => ∃ definition, store.class? classId = some definition ∧
      values.length = definition.fields.length
  | .array _ | .dictionary _ | .block _ | .classObject _ => True

theorem Measured.alloc {store : Store} (measured : store.Measured) {object : Object}
    (fits : store.Fits object) : (store.alloc object).2.Measured := by
  have classBefore : ∀ classId : ObjectId, classId.index < store.cells.size →
      (store.alloc object).2.class? classId = store.class? classId := by
    intro classId old
    have notNew : classId ≠ ⟨store.cells.size⟩ := by
      rintro rfl
      exact Nat.lt_irrefl _ old
    unfold Store.class?
    rw [get?_alloc, if_neg notNew]
  intro id classId values found
  rw [get?_alloc] at found
  split at found
  · rename_i new
    cases found
    obtain ⟨definition, isClass, sized⟩ := fits
    have old := index_lt_of_get? (get?_of_class? isClass)
    rw [classBefore classId old, isClass, new]
    refine ⟨old, fun other same => ?_⟩
    cases same
    exact sized
  · obtain ⟨older, sized⟩ := measured id classId values found
    rw [classBefore classId (Nat.lt_trans older (index_lt_of_get? found))]
    exact ⟨older, sized⟩

/-- How a class has come about: a descriptor describes it, and it has no superclass or an older one
that is there. -/
inductive Laid (described : ClassDescriptor → Prop) (store : Store) (id : ObjectId)
    (definition : ClassObject) : Prop
  | top {descriptor : ClassDescriptor} : described descriptor → definition.superclass = none →
      definition.Follows descriptor [] → Laid described store id definition
  | below {descriptor : ClassDescriptor} {parent : ObjectId} {above : ClassObject} :
      described descriptor → definition.superclass = some parent → parent.index < id.index →
      store.class? parent = some above → definition.Follows descriptor above.fields →
      Laid described store id definition

/-- The class of every instance is there and tells how many fields it has, and every class has come
about in one of the two ways. -/
structure Grounded (described : ClassDescriptor → Prop) (store : Store) : Prop where
  instances : ∀ id classId values, store.get? id = some (.record classId values) →
    ∃ definition, store.class? classId = some definition ∧
      values.length = definition.fields.length
  classes : ∀ id definition, store.class? id = some definition →
    Laid described store id definition

theorem isSome_get?_of_class? {store : Store} {id : ObjectId} {definition : ClassObject}
    (isClass : store.class? id = some definition) : (store.get? id).isSome = true := by
  rw [get?_of_class? isClass]
  rfl

/-- A class that has stayed has the same fields. -/
theorem class?_of_origin {older newer : Store}
    (origin : ∀ id object, newer.get? id = some object →
      ∃ before, older.get? id = some before ∧ object.cleared = before.cleared)
    {id : ObjectId} {before : ClassObject} (isClass : older.class? id = some before)
    (stays : (newer.get? id).isSome = true) :
    ∃ definition, newer.class? id = some definition ∧ definition.fields = before.fields := by
  obtain ⟨object, found⟩ := Option.isSome_iff_exists.mp stays
  obtain ⟨old, oldFound, same⟩ := origin id object found
  cases (get?_of_class? isClass).symm.trans oldFound
  obtain ⟨definition, rfl, _, _, sameFields, _⟩ := Object.eq_classObject_of_cleared same
  exact ⟨definition, class?_of_get? found, sameFields⟩

theorem Grounded.of_origin {described : ClassDescriptor → Prop} {older newer : Store}
    (grounded : older.Grounded described)
    (origin : ∀ id object, newer.get? id = some object →
      ∃ before, older.get? id = some before ∧ object.cleared = before.cleared)
    (stays : ∀ holder object id, newer.get? holder = some object → id ∈ object.references →
      (older.get? id).isSome = true → (newer.get? id).isSome = true) :
    newer.Grounded described := by
  refine ⟨fun id classId values found => ?_, fun id definition isClass => ?_⟩
  · obtain ⟨before, foundBefore, same⟩ := origin id _ found
    obtain ⟨others, rfl, sameLength⟩ := Object.eq_record_of_cleared same.symm
    obtain ⟨old, isOld, sized⟩ := grounded.instances id classId others foundBefore
    have stillThere := stays id _ classId found (by simp [Object.references])
      (isSome_get?_of_class? isOld)
    obtain ⟨definition, isClass, sameFields⟩ := class?_of_origin origin isOld stillThere
    exact ⟨definition, isClass, by rw [← sameLength, sized, sameFields]⟩
  · have found := get?_of_class? isClass
    obtain ⟨before, foundBefore, same⟩ := origin id _ found
    obtain ⟨old, rfl, sameName, sameSuperclass, sameFields, sameMethods, sameClassMethods, _⟩ :=
      Object.eq_classObject_of_cleared same.symm
    have follows : ∀ {descriptor inherited}, old.Follows descriptor inherited →
        definition.Follows descriptor inherited := by
      intro descriptor inherited follows
      exact ⟨sameName.symm.trans follows.name, sameFields.symm.trans follows.fields,
        sameMethods.symm.trans follows.methods, sameClassMethods.symm.trans follows.classMethods⟩
    cases grounded.classes id old (class?_of_get? foundBefore) with
    | top isDescribed noSuperclass isFollowed =>
        exact .top isDescribed (sameSuperclass.symm.trans noSuperclass) (follows isFollowed)
    | @below descriptor parent above isDescribed isSuperclass isOlder isAbove isFollowed =>
        have nowSuperclass := sameSuperclass.symm.trans isSuperclass
        have stillThere := stays id _ parent found (by simp [Object.references, nowSuperclass])
          (isSome_get?_of_class? isAbove)
        obtain ⟨nowAbove, isNowAbove, aboveFields⟩ := class?_of_origin origin isAbove stillThere
        exact .below isDescribed nowSuperclass isOlder isNowAbove
          (aboveFields ▸ follows isFollowed)

/-- The object is no class, or a class in one of the two ways in which classes come about. -/
def Lays (described : ClassDescriptor → Prop) (store : Store) : Object → Prop
  | .classObject definition => Laid described store ⟨store.cells.size⟩ definition
  | .array _ | .dictionary _ | .block _ | .record _ _ => True

theorem class?_alloc_of_some {store : Store} {id : ObjectId} {definition : ClassObject}
    (object : Object) (isClass : store.class? id = some definition) :
    (store.alloc object).2.class? id = some definition :=
  class?_of_get? (get?_alloc_of_some object (get?_of_class? isClass))

theorem Laid.alloc {described : ClassDescriptor → Prop} {store : Store} {id : ObjectId}
    {definition : ClassObject} (laid : Laid described store id definition) (object : Object) :
    Laid described (store.alloc object).2 id definition := by
  cases laid with
  | top isDescribed noSuperclass follows =>
      exact .top isDescribed noSuperclass follows
  | below isDescribed isSuperclass isOlder isAbove follows =>
      exact .below isDescribed isSuperclass isOlder (class?_alloc_of_some object isAbove) follows

theorem Grounded.alloc {described : ClassDescriptor → Prop} {store : Store}
    (grounded : store.Grounded described) {object : Object} (fits : store.Fits object)
    (lays : store.Lays described object) : (store.alloc object).2.Grounded described := by
  refine ⟨fun id classId values found => ?_, fun id definition isClass => ?_⟩
  · have sized : ∃ definition, store.class? classId = some definition ∧
        values.length = definition.fields.length := by
      rcases get?_alloc_cases found with rfl | was
      · exact fits
      · exact grounded.instances id classId values was
    obtain ⟨definition, isClass, sameLength⟩ := sized
    exact ⟨definition, class?_alloc_of_some object isClass, sameLength⟩
  · have found := get?_of_class? isClass
    rw [get?_alloc] at found
    split at found
    · rename_i new
      cases found
      rw [new]
      exact Laid.alloc lays _
    · exact (grounded.classes id definition (class?_of_get? found)).alloc object

/-- Every object of the second store is one of the first store with the same fixed part, or a new
one without code.  New instances fit their classes, and classes stay below their superclasses. -/
structure Inherits (older newer : Store) : Prop where
  size_le : older.cells.size ≤ newer.cells.size
  origin : ∀ id object, newer.get? id = some object →
    (∃ before, older.get? id = some before ∧ object.cleared = before.cleared) ∨
      (older.cells.size ≤ id.index ∧ object.isPlain = true)
  measured : older.Measured → newer.Measured
  grounded : ∀ described, older.Grounded described → newer.Grounded described

namespace Inherits

theorem refl (store : Store) : Inherits store store :=
  ⟨Nat.le_refl _, fun _ object found => Or.inl ⟨object, found, rfl⟩, fun measured => measured,
    fun _ grounded => grounded⟩

/-- No new object has come, and what an object refers to has stayed. -/
theorem of_origin {older newer : Store} (size_le : older.cells.size ≤ newer.cells.size)
    (origin : ∀ id object, newer.get? id = some object →
      ∃ before, older.get? id = some before ∧ object.cleared = before.cleared)
    (stays : ∀ holder object id, newer.get? holder = some object → id ∈ object.references →
      (older.get? id).isSome = true → (newer.get? id).isSome = true) :
    Inherits older newer :=
  ⟨size_le, fun id object found => Or.inl (origin id object found),
    fun measured => measured.of_origin origin,
    fun _ grounded => grounded.of_origin origin stays⟩

theorem trans {first second third : Store} (earlier : Inherits first second)
    (later : Inherits second third) : Inherits first third := by
  refine ⟨Nat.le_trans earlier.size_le later.size_le, fun id object found => ?_,
    fun measured => later.measured (earlier.measured measured),
    fun described grounded => later.grounded described (earlier.grounded described grounded)⟩
  rcases later.origin id object found with ⟨middle, middleFound, same⟩ | ⟨new, plain⟩
  · rcases earlier.origin id middle middleFound with
      ⟨before, beforeFound, sameBefore⟩ | ⟨new, plain⟩
    · exact Or.inl ⟨before, beforeFound, same.trans sameBefore⟩
    · refine Or.inr ⟨new, ?_⟩
      rw [← Object.isPlain_cleared, same, Object.isPlain_cleared]
      exact plain
  · exact Or.inr ⟨Nat.le_trans earlier.size_le new, plain⟩

end Inherits

theorem inherits_alloc (store : Store) {object : Object} (plain : object.isPlain = true)
    (fits : store.Fits object) : Inherits store (store.alloc object).2 := by
  have laysNone : ∀ described, store.Lays described object := by
    intro described
    cases object with
    | array _ | dictionary _ | record _ _ =>
        exact trivial
    | block _ | classObject _ =>
        cases plain
  refine ⟨by simp, fun id found present => ?_, fun measured => measured.alloc fits,
    fun described grounded => grounded.alloc fits (laysNone described)⟩
  rw [get?_alloc] at present
  split at present
  · rename_i new
    cases present
    rw [new]
    exact Or.inr ⟨Nat.le_refl _, plain⟩
  · exact Or.inl ⟨found, present, rfl⟩

theorem inherits_newRecord {store : Store} {classId : ObjectId} {definition : ClassObject}
    (isClass : store.class? classId = some definition) :
    Inherits store (store.newRecord classId).2 := by
  refine inherits_alloc store rfl ⟨definition, isClass, ?_⟩
  rw [List.length_replicate, Store.fieldCount, isClass]

theorem inherits_set {store : Store} {id : ObjectId} {old object : Object}
    (present : store.get? id = some old) (same : object.cleared = old.cleared) :
    Inherits store (store.set id object) := by
  refine .of_origin (by simp) (fun other found otherPresent => ?_) fun _ _ other _ _ was => ?_
  · by_cases here : other = id
    · subst here
      rw [get?_set_self object present] at otherPresent
      cases otherPresent
      exact ⟨old, present, same⟩
    · rw [get?_set_of_ne object here] at otherPresent
      exact ⟨found, otherPresent, rfl⟩
  · by_cases here : other = id
    · rw [here, get?_set_self object present]
      rfl
    · rw [get?_set_of_ne object here]
      exact was

theorem inherits_setField {store : Store} {id classId : ObjectId} {fields : List Value}
    (found : store.get? id = some (.record classId fields)) (index : Nat) (value : Value) :
    Inherits store (store.setField id index value) := by
  unfold Store.setField
  rw [found]
  exact inherits_set found (Object.cleared_set_field classId fields index value)

theorem inherits_setOwnClassVar {store : Store} {id : ObjectId} {definition : ClassObject}
    (found : store.class? id = some definition) (name : String) (value : Value) :
    Inherits store (store.setOwnClassVar id definition name value) :=
  inherits_set (get?_of_class? found) (Object.cleared_setClassVar definition name value)

theorem inherits_track (store : Store) (value : Value) : Inherits store (store.track value) := by
  refine .of_origin (by simp) (fun id object found => ?_) fun _ _ id _ _ was => ?_
  · rw [get?_track] at found
    exact ⟨object, found, rfl⟩
  · rw [get?_track]
    exact was

/-- An object to which no other refers goes away. -/
theorem inherits_erase {store : Store} {id : ObjectId}
    (unreferenced : ∀ holder object, store.get? holder = some object → id ∉ object.references) :
    Inherits store (store.erase id) := by
  have found : ∀ {other object}, (store.erase id).get? other = some object →
      store.get? other = some object := by
    intro other object isFound
    rw [get?_erase] at isFound
    split at isFound
    · cases isFound
    · exact isFound
  refine .of_origin (by simp) (fun other object isFound => ⟨object, found isFound, rfl⟩)
    fun holder object other isHolder member was => ?_
  have different : other ≠ id := by
    intro same
    exact unreferenced holder object (found isHolder) (same ▸ member)
  rw [get?_erase, if_neg different]
  exact was

end Store

end Missive
