import Mathlib.Logic.Relation
import Missive.Proofs.Classes.Supers

/-!
# Class variables that classes share

A class variable lives in the nearest class from a class upward that declares it.  All classes with
the same nearest declarer share it, and one that declares the name again hides the variable above.

A store reaches exactly the classes that share the variable.  It changes neither the superclass of a
class nor the names that the class declares, so however many values are stored, the way up is the
same and so is the nearest declarer of each name.
-/

namespace Missive

/-! ## A class after a store -/

namespace ClassObject

theorem declares_setClassVar (definition : ClassObject) (name : String) (value : Value)
    (variableName : String) :
    (definition.setClassVar name value).declares variableName =
      definition.declares variableName := by
  unfold declares setClassVar
  rw [List.any_map]
  congr 1
  funext entry
  by_cases same : entry.1 = name <;> simp [same]

/-- In the class the variable has the new value, and every other variable the value it had. -/
theorem lookup_setClassVar (definition : ClassObject) (name : String) (value : Value)
    (variableName : String) :
    (definition.setClassVar name value).classVars.lookup variableName =
      if variableName = name then
        (definition.classVars.lookup variableName).map fun _ => value
      else definition.classVars.lookup variableName := by
  unfold setClassVar
  induction definition.classVars with
  | nil =>
      simp
  | cons entry rest inductionHypothesis =>
      obtain ⟨declared, old⟩ := entry
      rw [List.map_cons]
      by_cases stored : declared = name
      · rw [if_pos stored, List.lookup_cons, List.lookup_cons, stored]
        by_cases isName : variableName = name
        · simp [isName]
        · have other : (variableName == name) = false := beq_eq_false_iff_ne.mpr isName
          rw [if_neg isName] at inductionHypothesis ⊢
          rw [other]
          exact inductionHypothesis
      · rw [if_neg stored, List.lookup_cons, List.lookup_cons]
        by_cases isDeclared : variableName = declared
        · simp [isDeclared, stored]
        · have other : (variableName == declared) = false := beq_eq_false_iff_ne.mpr isDeclared
          rw [other]
          exact inductionHypothesis

end ClassObject

namespace Store

variable {store after : Store} {id other parent holder : ObjectId} {definition : ClassObject}
  {name variableName : String}

/-! ## The way up -/

/-- Every class comes after its superclass. -/
def Ascending (store : Store) : Prop :=
  ∀ id definition parent, store.class? id = some definition →
    definition.superclass = some parent → parent.index < id.index

/-- The second class is the superclass of the first one. -/
def HasSuperclass (store : Store) (id parent : ObjectId) : Prop :=
  ∃ definition, store.class? id = some definition ∧ definition.superclass = some parent

/-- From the first class upward there is the second one. -/
def Upward (store : Store) : ObjectId → ObjectId → Prop :=
  Relation.ReflTransGen store.HasSuperclass

/-- The class itself declares the class variable. -/
def Declares (store : Store) (id : ObjectId) (name : String) : Prop :=
  ∃ definition, store.class? id = some definition ∧ definition.declares name = true

/-- The second class is the nearest one from the first one upward that declares the class
variable. -/
inductive NearestDeclarer (store : Store) (name : String) : ObjectId → ObjectId → Prop
  | own {id : ObjectId} : store.Declares id name → NearestDeclarer store name id id
  | above {id parent holder : ObjectId} : ¬ store.Declares id name →
      store.HasSuperclass id parent → NearestDeclarer store name parent holder →
      NearestDeclarer store name id holder

theorem declares_iff (isClass : store.class? id = some definition) :
    store.Declares id name ↔ definition.declares name = true := by
  unfold Declares
  rw [isClass]
  simp

theorem hasSuperclass_iff (isClass : store.class? id = some definition) :
    store.HasSuperclass id parent ↔ definition.superclass = some parent := by
  unfold HasSuperclass
  rw [isClass]
  simp

theorem NearestDeclarer.declares (nearest : store.NearestDeclarer name id holder) :
    store.Declares holder name := by
  induction nearest with
  | own declares => exact declares
  | above _ _ _ inductionHypothesis => exact inductionHypothesis

/-- There is only one nearest declarer. -/
theorem NearestDeclarer.unique (nearest : store.NearestDeclarer name id holder)
    (alsoNearest : store.NearestDeclarer name id other) : holder = other := by
  induction nearest with
  | own declares =>
      cases alsoNearest with
      | own _ => rfl
      | above not _ _ => exact (not declares).elim
  | above not superclass _ inductionHypothesis =>
      cases alsoNearest with
      | own declares => exact (not declares).elim
      | above _ alsoSuperclass upper =>
          obtain ⟨definition, isClass, isParent⟩ := superclass
          obtain rfl := Option.some.inj
            (isParent.symm.trans ((hasSuperclass_iff isClass).mp alsoSuperclass))
          exact inductionHypothesis upper

/-- There is a nearest declarer as soon as some class on the way up is a declarer. -/
theorem exists_nearestDeclarer_iff :
    (∃ holder, store.NearestDeclarer name id holder) ↔
      ∃ upper, store.Upward id upper ∧ store.Declares upper name := by
  constructor
  · rintro ⟨holder, nearest⟩
    refine ⟨holder, ?_, nearest.declares⟩
    induction nearest with
    | own _ => exact .refl
    | above _ superclass _ inductionHypothesis => exact .head superclass inductionHypothesis
  · rintro ⟨upper, way, declares⟩
    induction way using Relation.ReflTransGen.head_induction_on with
    | refl => exact ⟨upper, .own declares⟩
    | @head lower _ superclass _ inductionHypothesis =>
        by_cases already : store.Declares lower name
        · exact ⟨lower, .own already⟩
        · obtain ⟨holder, nearest⟩ := inductionHypothesis
          exact ⟨holder, .above already superclass nearest⟩

/-! ## Where a search ends -/

/-- The search looks at the class and then goes on above it. -/
theorem Ascending.classVarOwner?_eq (ascending : store.Ascending)
    (isClass : store.class? id = some definition) :
    store.classVarOwner? id name =
      if definition.declares name then some (id, definition)
      else definition.superclass.bind fun parent => store.classVarOwner? parent name := by
  unfold classVarOwner?
  rw [lineage, isClass, List.find?_cons]
  cases definition.declares name with
  | true => rfl
  | false =>
      cases isSuperclass : definition.superclass with
      | none => rfl
      | some parent => simp [ascending id definition parent isClass isSuperclass]

theorem class?_eq_some_of_classVarOwner? {answer : ObjectId × ClassObject}
    (found : store.classVarOwner? id name = some answer) :
    ∃ definition, store.class? id = some definition := by
  cases isClass : store.class? id with
  | none =>
      rw [classVarOwner?, lineage, isClass] at found
      cases found
  | some definition => exact ⟨definition, rfl⟩

/-- The search ends at the nearest declarer. -/
theorem Ascending.classVarOwner?_eq_some_iff (ascending : store.Ascending) :
    store.classVarOwner? id name = some (holder, definition) ↔
      store.NearestDeclarer name id holder ∧ store.class? holder = some definition := by
  constructor
  · intro found
    refine ⟨?_, class?_of_classVarOwner? found⟩
    induction place : id.index using Nat.strongRecOn generalizing id with
    | ind index inductionHypothesis =>
        obtain ⟨lower, isClass⟩ := class?_eq_some_of_classVarOwner? found
        rw [ascending.classVarOwner?_eq isClass] at found
        split at found
        · rename_i declares
          cases found
          exact .own ((declares_iff isClass).mpr declares)
        · rename_i not
          obtain ⟨parent, isSuperclass, upper⟩ := Option.bind_eq_some_iff.mp found
          have older := ascending id lower parent isClass isSuperclass
          exact .above (mt (declares_iff isClass).mp not) ⟨lower, isClass, isSuperclass⟩
            (inductionHypothesis parent.index (place ▸ older) upper rfl)
  · rintro ⟨nearest, isHolder⟩
    induction nearest with
    | own declares =>
        rw [ascending.classVarOwner?_eq isHolder, if_pos ((declares_iff isHolder).mp declares)]
    | above not superclass _ inductionHypothesis =>
        obtain ⟨lower, isClass, isSuperclass⟩ := superclass
        rw [ascending.classVarOwner?_eq isClass, if_neg (mt (declares_iff isClass).mpr not),
          isSuperclass, Option.bind_some, inductionHypothesis isHolder]

theorem Ascending.isSome_classVarOwner?_iff_upward (ascending : store.Ascending) :
    (store.classVarOwner? id name).isSome = true ↔
      ∃ upper, store.Upward id upper ∧ store.Declares upper name := by
  rw [← exists_nearestDeclarer_iff, Option.isSome_iff_exists]
  constructor
  · rintro ⟨⟨holder, definition⟩, found⟩
    exact ⟨holder, (ascending.classVarOwner?_eq_some_iff.mp found).1⟩
  · rintro ⟨holder, nearest⟩
    obtain ⟨definition, isHolder, _⟩ := nearest.declares
    exact ⟨(holder, definition), ascending.classVarOwner?_eq_some_iff.mpr ⟨nearest, isHolder⟩⟩

/-- A class sees the value that its nearest declarer holds. -/
theorem Ascending.classVar?_eq (ascending : store.Ascending)
    (nearest : store.NearestDeclarer name id holder)
    (isHolder : store.class? holder = some definition) :
    store.classVar? id name = definition.classVars.lookup name := by
  unfold classVar?
  rw [ascending.classVarOwner?_eq_some_iff.mpr ⟨nearest, isHolder⟩]
  rfl

theorem Ascending.classVar?_eq_none (ascending : store.Ascending)
    (nowhere : ¬ ∃ holder, store.NearestDeclarer name id holder) :
    store.classVar? id name = none := by
  rw [exists_nearestDeclarer_iff, ← ascending.isSome_classVarOwner?_iff_upward] at nowhere
  exact classVar?_eq_none_iff.mpr (by simpa using nowhere)

/-! ## What a store leaves as it is -/

/-- In both stores the same classes are there, with the same superclasses, and they declare the same
names. -/
structure SameHierarchy (store after : Store) : Prop where
  superclass : ∀ id parent, after.HasSuperclass id parent ↔ store.HasSuperclass id parent
  declares : ∀ id name, after.Declares id name ↔ store.Declares id name

namespace SameHierarchy

theorem refl (store : Store) : store.SameHierarchy store :=
  ⟨fun _ _ => .rfl, fun _ _ => .rfl⟩

theorem trans {last : Store} (first : store.SameHierarchy after)
    (second : after.SameHierarchy last) : store.SameHierarchy last :=
  ⟨fun id parent => (second.superclass id parent).trans (first.superclass id parent),
    fun id name => (second.declares id name).trans (first.declares id name)⟩

theorem ascending (same : store.SameHierarchy after) (ascending : store.Ascending) :
    after.Ascending := by
  intro id definition parent isClass isSuperclass
  obtain ⟨old, wasClass, wasSuperclass⟩ :=
    (same.superclass id parent).mp ⟨definition, isClass, isSuperclass⟩
  exact ascending id old parent wasClass wasSuperclass

theorem nearestDeclarer_of (same : store.SameHierarchy after)
    (nearest : store.NearestDeclarer name id holder) :
    after.NearestDeclarer name id holder := by
  induction nearest with
  | own declares => exact .own ((same.declares _ _).mpr declares)
  | above not superclass _ inductionHypothesis =>
      exact .above (mt (same.declares _ _).mp not) ((same.superclass _ _).mpr superclass)
        inductionHypothesis

theorem symm (same : store.SameHierarchy after) : after.SameHierarchy store :=
  ⟨fun id parent => (same.superclass id parent).symm, fun id name => (same.declares id name).symm⟩

theorem nearestDeclarer_iff (same : store.SameHierarchy after) :
    after.NearestDeclarer name id holder ↔ store.NearestDeclarer name id holder :=
  ⟨same.symm.nearestDeclarer_of, same.nearestDeclarer_of⟩

end SameHierarchy

section Stored

variable {value : Value}

theorem class?_setOwnClassVar (isHolder : store.class? holder = some definition)
    (id : ObjectId) (name : String) (value : Value) :
    (store.setOwnClassVar holder definition name value).class? id =
      if id = holder then some (definition.setClassVar name value) else store.class? id := by
  split
  · rename_i here
    rw [here]
    exact class?_of_get? (get?_set_self _ (get?_of_class? isHolder))
  · rename_i elsewhere
    unfold class? setOwnClassVar
    rw [get?_set_of_ne _ elsewhere]

theorem sameHierarchy_setOwnClassVar (isHolder : store.class? holder = some definition) :
    store.SameHierarchy (store.setOwnClassVar holder definition name value) := by
  refine ⟨fun id parent => ?_, fun id variableName => ?_⟩
  · unfold HasSuperclass
    rw [class?_setOwnClassVar isHolder]
    by_cases here : id = holder
    · rw [if_pos here, here, isHolder]
      simp [ClassObject.setClassVar]
    · rw [if_neg here]
  · unfold Declares
    rw [class?_setOwnClassVar isHolder]
    by_cases here : id = holder
    · rw [if_pos here, here, isHolder]
      simp [ClassObject.declares_setClassVar]
    · rw [if_neg here]

theorem setClassVar?_eq_some_iff :
    store.setClassVar? id name value = some after ↔ ∃ holder definition,
      store.classVarOwner? id name = some (holder, definition) ∧
        after = store.setOwnClassVar holder definition name value := by
  unfold setClassVar?
  cases store.classVarOwner? id name with
  | none => simp
  | some answer => simp [Prod.ext_iff, eq_comm]

theorem isSome_setClassVar? :
    (store.setClassVar? id name value).isSome = (store.classVarOwner? id name).isSome := by
  unfold setClassVar?
  cases store.classVarOwner? id name <;> rfl

theorem sameHierarchy_setClassVar? (stored : store.setClassVar? id name value = some after) :
    store.SameHierarchy after := by
  obtain ⟨holder, definition, found, rfl⟩ := setClassVar?_eq_some_iff.mp stored
  exact sameHierarchy_setOwnClassVar (class?_of_classVarOwner? found)

/-- A class with the same nearest declarer sees the new value. -/
theorem Ascending.classVar?_shared (ascending : store.Ascending)
    (stored : store.setClassVar? id name value = some after)
    (nearest : store.NearestDeclarer name id holder)
    (shares : store.NearestDeclarer name other holder) :
    after.classVar? other name = some value := by
  obtain ⟨owner, definition, found, rfl⟩ := setClassVar?_eq_some_iff.mp stored
  obtain ⟨isNearest, isOwner⟩ := ascending.classVarOwner?_eq_some_iff.mp found
  obtain rfl := isNearest.unique nearest
  have same : store.SameHierarchy (store.setOwnClassVar owner definition name value) :=
    sameHierarchy_setOwnClassVar isOwner
  have isNow := class?_setOwnClassVar isOwner owner name value
  rw [if_pos rfl] at isNow
  obtain ⟨old, isOld⟩ := Option.isSome_iff_exists.mp
    (ClassObject.isSome_lookup_of_declares ((declares_iff isOwner).mp nearest.declares))
  rw [(same.ascending ascending).classVar?_eq (same.nearestDeclarer_of shares) isNow,
    ClassObject.lookup_setClassVar, if_pos rfl, isOld]
  rfl

/-- A class that has another nearest declarer, or none, sees what it saw, and so it is with every
other name. -/
theorem Ascending.classVar?_unshared (ascending : store.Ascending)
    (stored : store.setClassVar? id name value = some after)
    (apart : ¬ (variableName = name ∧ ∃ holder, store.NearestDeclarer name id holder ∧
      store.NearestDeclarer name other holder)) :
    after.classVar? other variableName = store.classVar? other variableName := by
  obtain ⟨owner, definition, found, rfl⟩ := setClassVar?_eq_some_iff.mp stored
  obtain ⟨isNearest, isOwner⟩ := ascending.classVarOwner?_eq_some_iff.mp found
  have same : store.SameHierarchy (store.setOwnClassVar owner definition name value) :=
    sameHierarchy_setOwnClassVar isOwner
  have ascendingNow := same.ascending ascending
  by_cases seen : ∃ holder, store.NearestDeclarer variableName other holder
  · obtain ⟨holder, nearest⟩ := seen
    obtain ⟨declarer, isHolder, _⟩ := nearest.declares
    have isNow := class?_setOwnClassVar isOwner holder name value
    rw [ascending.classVar?_eq nearest isHolder]
    by_cases here : holder = owner
    · rw [if_pos here] at isNow
      rw [ascendingNow.classVar?_eq (same.nearestDeclarer_of nearest) isNow,
        ClassObject.lookup_setClassVar]
      obtain rfl := Option.some.inj (isOwner.symm.trans (here ▸ isHolder))
      rw [if_neg]
      rintro rfl
      exact apart ⟨rfl, owner, isNearest, here ▸ nearest⟩
    · rw [if_neg here, isHolder] at isNow
      exact ascendingNow.classVar?_eq (same.nearestDeclarer_of nearest) isNow
  · rw [ascending.classVar?_eq_none seen, ascendingNow.classVar?_eq_none]
    rintro ⟨holder, nearest⟩
    exact seen ⟨holder, same.nearestDeclarer_iff.mp nearest⟩

/-- No object other than the nearest declarer changes. -/
theorem Ascending.get?_unshared (ascending : store.Ascending)
    (stored : store.setClassVar? id name value = some after)
    (apart : ¬ store.NearestDeclarer name id other) : after.get? other = store.get? other := by
  obtain ⟨owner, definition, found, rfl⟩ := setClassVar?_eq_some_iff.mp stored
  refine get?_set_of_ne _ fun same => apart ?_
  rw [same]
  exact (ascending.classVarOwner?_eq_some_iff.mp found).1

end Stored

/-- The store after values have been stored one after the other.  Where no class declares the
variable, nothing is stored. -/
def storeAll (store : Store) (values : List (ObjectId × String × Value)) : Store :=
  values.foldl (fun store (id, name, value) => (store.setClassVar? id name value).getD store) store

theorem sameHierarchy_storeAll (store : Store) (values : List (ObjectId × String × Value)) :
    store.SameHierarchy (store.storeAll values) := by
  induction values generalizing store with
  | nil => exact .refl store
  | cons stored rest inductionHypothesis =>
      obtain ⟨id, name, value⟩ := stored
      have first : store.SameHierarchy ((store.setClassVar? id name value).getD store) := by
        cases next : store.setClassVar? id name value with
        | none => exact .refl store
        | some after => exact sameHierarchy_setClassVar? next
      exact first.trans (inductionHypothesis _)

end Store

/-! ## The instructions -/

namespace Exec

variable {machine : Machine} {current : Frame} {rest : List Frame} {instruction : Instruction}
  {name : String} {id : ObjectId}

theorem nameOperand_of_selected (frames : machine.frames = current :: rest)
    (isName : Instruction.selected current.code.constants instruction.operand =
      some (.string name)) :
    nameOperand instruction machine = .ok name machine := by
  have found : constantAt? (operandIndex? instruction.operand) machine =
      .ok (some (.string name)) machine := by
    unfold constantAt?
    rw [bind_of_ok (frame_of_cons frames)]
    exact congrArg (EStateM.Result.ok · machine) isName
  unfold nameOperand
  rw [bind_of_ok found]
  rfl

/-- The instruction pushes what the class of the running method sees. -/
theorem loadClassVar_eq (frames : machine.frames = current :: rest)
    (isOwner : current.owner = some id)
    (isName : Instruction.selected current.code.constants instruction.operand =
      some (.string name)) :
    loadClassVar instruction machine =
      match machine.store.classVar? id name with
      | some value => push value machine
      | none => .error (.undefinedClassVariable name) machine := by
  have got : (get : Exec Machine) machine = .ok machine machine := rfl
  unfold loadClassVar
  rw [bind_of_ok (nameOperand_of_selected frames isName),
    bind_of_ok (owner_of_some frames isOwner), bind_of_ok got]
  cases machine.store.classVar? id name <;> rfl

/-- The instruction stores the value on top of the stack, or nothing changes. -/
theorem storeClassVar_eq {value : Value} {operands : List Value}
    (frames : machine.frames = current :: rest) (isOwner : current.owner = some id)
    (isName : Instruction.selected current.code.constants instruction.operand =
      some (.string name))
    (stack : current.stack = value :: operands) :
    storeClassVar instruction machine =
      match machine.store.setClassVar? id name value with
      | some after => .ok () { machine with store := after }
      | none => .error (.undefinedClassVariable name) machine := by
  have got : (get : Exec Machine) machine = .ok machine machine := rfl
  unfold storeClassVar Store.setClassVar?
  rw [bind_of_ok (nameOperand_of_selected frames isName),
    bind_of_ok (owner_of_some frames isOwner), bind_of_ok (peek_of_cons frames stack),
    bind_of_ok got]
  cases machine.store.classVarOwner? id name <;> rfl

end Exec

/-! ## The stores of a machine -/

namespace Store

/-- In the store of a machine every class comes after its superclass, whatever has been loaded and
run. -/
theorem ascending_after (config : Config) (refusal : Option String) (commands : List Command) :
    ((Machine.new config refusal).after commands).store.Ascending := by
  intro id definition parent isClass isSuperclass
  have grounded := (Machine.sourced_after config refusal commands).store
  rcases grounded.lineage_cases isClass with ⟨none, _⟩ | ⟨found, _, isFound, older, _, _⟩
  · rw [none] at isSuperclass
    cases isSuperclass
  · obtain rfl := Option.some.inj (isFound.symm.trans isSuperclass)
    exact older

/-- A value can be stored exactly where some class on the way up declares the variable.  Then the
classes that have the same nearest declarer see the value, and nothing else changes: not what
another class sees, not another variable, and no object but the nearest declarer.  The instructions
of a method do this with the class of the method, or fail and leave the machine as it is.  However
many values are stored, the nearest declarers stay. -/
theorem Ascending.stored_where_shared (ascending : store.Ascending) (id : ObjectId) (name : String)
    (value : Value) :
    ((store.setClassVar? id name value).isSome = true ↔
      ∃ upper, store.Upward id upper ∧ store.Declares upper name) ∧
    (∀ after, store.setClassVar? id name value = some after →
      (∀ other holder, store.NearestDeclarer name id holder →
        store.NearestDeclarer name other holder → after.classVar? other name = some value) ∧
      (∀ other variableName, ¬ (variableName = name ∧ ∃ holder,
          store.NearestDeclarer name id holder ∧ store.NearestDeclarer name other holder) →
        after.classVar? other variableName = store.classVar? other variableName) ∧
      ∀ object, ¬ store.NearestDeclarer name id object →
        after.get? object = store.get? object) ∧
    (∀ (machine : Machine) (current : Frame) (rest : List Frame) (instruction : Instruction),
      machine.store = store → machine.frames = current :: rest → current.owner = some id →
      Instruction.selected current.code.constants instruction.operand = some (.string name) →
      Exec.loadClassVar instruction machine =
          (match store.classVar? id name with
          | some value => Exec.push value machine
          | none => .error (.undefinedClassVariable name) machine) ∧
        ∀ operands, current.stack = value :: operands →
          Exec.storeClassVar instruction machine =
            match store.setClassVar? id name value with
            | some after => .ok () { machine with store := after }
            | none => .error (.undefinedClassVariable name) machine) ∧
    ∀ values other variableName holder,
      (store.storeAll values).NearestDeclarer variableName other holder ↔
        store.NearestDeclarer variableName other holder := by
  refine ⟨?_, fun after stored => ⟨?_, ?_, ?_⟩, ?_, ?_⟩
  · rw [isSome_setClassVar?]
    exact ascending.isSome_classVarOwner?_iff_upward
  · exact fun other holder nearest shares => ascending.classVar?_shared stored nearest shares
  · exact fun other variableName apart => ascending.classVar?_unshared stored apart
  · exact fun object apart => ascending.get?_unshared stored apart
  · rintro machine current rest instruction rfl frames isOwner isName
    exact ⟨Exec.loadClassVar_eq frames isOwner isName,
      fun operands stack => Exec.storeClassVar_eq frames isOwner isName stack⟩
  · exact fun values other variableName holder =>
      (store.sameHierarchy_storeAll values).nearestDeclarer_iff

/-- The classes `B` and `D` inherit from `A` and `C` inherits from `B`.  Both `A` and `B` declare
the variable. -/
def family : Program :=
  [.define ⟨"A", some "Object", [], ["v"], [], []⟩, .define ⟨"B", some "A", [], ["v"], [], []⟩,
    .define ⟨"C", some "B", [], [], [], []⟩, .define ⟨"D", some "A", [], [], [], []⟩]

/-- A value that is stored from `D` is seen in `A`, but not in `C`, for which `B` hides the
variable. -/
theorem stored_where_shared_family :
    let store := ((Machine.new {} none).after
      (.load family.code :: List.replicate 8 .step)).store
    ∃ after a c d, [a, c, d].map store.nameOf = ["A", "C", "D"] ∧ store.Ascending ∧
      store.setClassVar? d "v" (.int 7) = some after ∧ after.classVar? a "v" = some (.int 7) ∧
      store.classVar? c "v" = some .nil ∧ after.classVar? c "v" = some .nil := by
  intro store
  have ascending : store.Ascending := ascending_after {} none _
  obtain ⟨_, effect, _, _⟩ := ascending.stored_where_shared ⟨4⟩ "v" (.int 7)
  have stores : (store.setClassVar? ⟨4⟩ "v" (.int 7)).isSome = true := by decide +kernel
  obtain ⟨after, stored⟩ := Option.isSome_iff_exists.mp stores
  have nearest : ∀ {id holder : Nat},
      (store.classVarOwner? ⟨id⟩ "v").map Prod.fst = some ⟨holder⟩ →
        store.NearestDeclarer "v" ⟨id⟩ ⟨holder⟩ := by
    intro id holder found
    obtain ⟨answer, isAnswer, same⟩ := Option.map_eq_some_iff.mp found
    rw [← same]
    exact (ascending.classVarOwner?_eq_some_iff.mp isAnswer).1
  have above : store.NearestDeclarer "v" ⟨1⟩ ⟨1⟩ := nearest (by decide +kernel)
  have hidden : store.NearestDeclarer "v" ⟨3⟩ ⟨2⟩ := nearest (by decide +kernel)
  have beside : store.NearestDeclarer "v" ⟨4⟩ ⟨1⟩ := nearest (by decide +kernel)
  have before : store.classVar? ⟨3⟩ "v" = some .nil := by decide +kernel
  obtain ⟨shared, unshared, _⟩ := effect after stored
  refine ⟨after, ⟨1⟩, ⟨3⟩, ⟨4⟩, by decide +kernel, ascending, stored,
    shared ⟨1⟩ ⟨1⟩ beside above, before, ?_⟩
  rw [unshared ⟨3⟩ "v", before]
  rintro ⟨_, holder, first, second⟩
  cases (first.unique beside).symm.trans (second.unique hidden)

end Store

end Missive
