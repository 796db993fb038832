import Missive.Proofs.Classes.Representation
import Missive.Proofs.Steps.Returns

/-!
# The classes above a class

The superclass of a class and its methods are what they were when the class was created.  So the
classes above a class are the same at any two times at which it is there, and a class that was once
above another one stays above it, even when the lower one has gone away.

A method that is running is one of its class.  The class may go away while the method waits, but not
its place in the store, which no other class gets.
-/

namespace Missive

namespace Store

variable {described : ClassDescriptor → Prop} {store older newer : Store} {id ancestor : ObjectId}
  {definition : ClassObject}

/-! ## The way up -/

theorem inheritsFrom_iff :
    store.inheritsFrom id ancestor = true ↔ ancestor ∈ (store.lineage id).map Prod.fst := by
  unfold inheritsFrom
  simp only [List.any_eq_true, List.mem_map, beq_iff_eq]

/-- A class, and the way up from its superclass if it has one. -/
theorem Grounded.lineage_cases (grounded : store.Grounded described)
    (isClass : store.class? id = some definition) :
    definition.superclass = none ∧ store.lineage id = [(id, definition)] ∨
      ∃ parent above, definition.superclass = some parent ∧ parent.index < id.index ∧
        store.class? parent = some above ∧
        store.lineage id = (id, definition) :: store.lineage parent := by
  cases grounded.classes id definition isClass with
  | top _ noSuperclass _ =>
      refine Or.inl ⟨noSuperclass, ?_⟩
      rw [Store.lineage, isClass]
      simp only [noSuperclass]
  | @below _ parent above _ isSuperclass isOlder isAbove _ =>
      refine Or.inr ⟨parent, above, isSuperclass, isOlder, isAbove, ?_⟩
      rw [Store.lineage, isClass]
      simp only [isSuperclass, isOlder, if_true]

theorem exists_class?_of_inheritsFrom (inherits : store.inheritsFrom id ancestor = true) :
    ∃ definition, store.class? id = some definition := by
  rw [inheritsFrom_iff, Store.lineage] at inherits
  cases isClass : store.class? id with
  | none =>
      rw [isClass] at inherits
      cases inherits
  | some definition =>
      exact ⟨definition, rfl⟩

theorem exists_class?_ancestor (inherits : store.inheritsFrom id ancestor = true) :
    ∃ definition, store.class? ancestor = some definition := by
  obtain ⟨entry, member, rfl⟩ := List.mem_map.mp (inheritsFrom_iff.mp inherits)
  exact ⟨entry.2, class?_of_mem_lineage member⟩

/-- A class inherits from itself and from what its superclass inherits from. -/
theorem Grounded.inheritsFrom_cases (grounded : store.Grounded described)
    (inherits : store.inheritsFrom id ancestor = true) :
    ancestor = id ∨ ∃ parent, parent.index < id.index ∧
      store.inheritsFrom parent ancestor = true ∧
      (∀ other, store.inheritsFrom parent other = true → store.inheritsFrom id other = true) := by
  obtain ⟨definition, isClass⟩ := exists_class?_of_inheritsFrom inherits
  have member := inheritsFrom_iff.mp inherits
  rcases grounded.lineage_cases isClass with ⟨_, whole⟩ | ⟨parent, _, _, isOlder, _, whole⟩
  · rw [whole] at member
    exact Or.inl (List.mem_singleton.mp member)
  · rw [whole, List.map_cons, List.mem_cons] at member
    refine member.imp_right fun further =>
      ⟨parent, isOlder, inheritsFrom_iff.mpr further, fun other inheritsOther => ?_⟩
    rw [inheritsFrom_iff, whole, List.map_cons]
    exact List.mem_cons_of_mem _ (inheritsFrom_iff.mp inheritsOther)

theorem Grounded.inheritsFrom_trans (grounded : store.Grounded described) {top : ObjectId}
    (lower : store.inheritsFrom id ancestor = true)
    (upper : store.inheritsFrom ancestor top = true) : store.inheritsFrom id top = true := by
  induction place : id.index using Nat.strongRecOn generalizing id with
  | ind index inductionHypothesis =>
      rcases grounded.inheritsFrom_cases lower with rfl | ⟨parent, isOlder, further, above⟩
      · exact upper
      · exact above top (inductionHypothesis _ (place ▸ isOlder) further rfl)

/-- Everything above a class is older. -/
theorem Grounded.index_lt_of_mem_above (grounded : store.Grounded described)
    {above : List (ObjectId × ClassObject)} (whole : store.lineage id = (id, definition) :: above) :
    ∀ entry ∈ above, entry.1.index < id.index := by
  induction place : id.index using Nat.strongRecOn generalizing id definition above with
  | ind index inductionHypothesis =>
      have isClass : store.class? id = some definition :=
        class?_of_mem_lineage (whole ▸ List.mem_cons_self)
      rcases grounded.lineage_cases isClass with
        ⟨_, alone⟩ | ⟨parent, upper, _, isOlder, isUpper, split⟩
      · cases whole.symm.trans alone
        exact fun _ impossible => (List.not_mem_nil impossible).elim
      · cases whole.symm.trans split
        intro entry member
        obtain ⟨further, isParent⟩ :
            ∃ further, store.lineage parent = (parent, upper) :: further := by
          rcases grounded.lineage_cases isUpper with ⟨_, alone⟩ | ⟨_, _, _, _, _, split⟩
          · exact ⟨_, alone⟩
          · exact ⟨_, split⟩
        rw [isParent] at member
        rcases List.mem_cons.mp member with rfl | inFurther
        · exact place ▸ isOlder
        · have lower := inductionHypothesis _ (place ▸ isOlder) isParent rfl entry inFurther
          omega

/-- The method for a message to `super` is the nearest one of the classes above. -/
theorem Grounded.inheritedMethod?_eq (grounded : store.Grounded described)
    (isClass : store.class? id = some definition) :
    ∃ above, store.lineage id = (id, definition) :: above ∧ ∀ classSide selector,
      Exec.inheritedMethod? store id classSide selector =
        above.findSome? fun (owner, definition) =>
          (definition.method? classSide selector).map fun method =>
            (owner, definition, method) := by
  rcases grounded.lineage_cases isClass with
    ⟨noSuperclass, whole⟩ | ⟨parent, _, isParent, _, _, whole⟩
  · refine ⟨[], whole, fun classSide selector => ?_⟩
    unfold Exec.inheritedMethod?
    rw [isClass, Option.bind_eq_bind, Option.bind_some, noSuperclass]
    rfl
  · refine ⟨store.lineage parent, whole, fun classSide selector => ?_⟩
    unfold Exec.inheritedMethod?
    rw [isClass, Option.bind_eq_bind, Option.bind_some, isParent]
    rfl

/-! ## The same classes later -/

theorem Preserves.trans {first second third : Store} (earlier : Preserves first second)
    (later : Preserves second third) : Preserves first third := by
  refine ⟨Nat.le_trans earlier.size_le later.size_le, fun {id object} old found => ?_⟩
  obtain ⟨between, foundBetween, sameLater⟩ :=
    later.same (Nat.lt_of_lt_of_le old earlier.size_le) found
  obtain ⟨before, foundBefore, sameEarlier⟩ := earlier.same old foundBetween
  exact ⟨before, foundBefore, sameLater.trans sameEarlier⟩

/-- A class that is there was the same class before. -/
theorem Preserves.class? (preserves : Preserves older newer) (old : id.index < older.cells.size)
    (isClass : newer.class? id = some definition) :
    ∃ before, older.class? id = some before ∧ definition.superclass = before.superclass ∧
      ∀ classSide selector, definition.method? classSide selector =
        before.method? classSide selector := by
  obtain ⟨object, found, same⟩ := preserves.same old (get?_of_class? isClass)
  obtain ⟨before, rfl, _, sameSuperclass, _, sameMethods, sameClassMethods, _⟩ :=
    Object.eq_classObject_of_cleared same.symm
  refine ⟨before, class?_of_get? found, sameSuperclass.symm, fun classSide selector => ?_⟩
  unfold ClassObject.method?
  rw [sameMethods, sameClassMethods]

/-- At two times at which a class is there, the same classes are above it. -/
theorem Preserves.ids_lineage (preserves : Preserves older newer)
    (grounded : newer.Grounded described) (old : id.index < older.cells.size)
    (isClass : newer.class? id = some definition) :
    (older.lineage id).map Prod.fst = (newer.lineage id).map Prod.fst := by
  induction place : id.index using Nat.strongRecOn generalizing id definition with
  | ind index inductionHypothesis =>
      obtain ⟨before, wasClass, same, _⟩ := preserves.class? old isClass
      rw [Store.lineage, wasClass]
      rcases grounded.lineage_cases isClass with
        ⟨noSuperclass, whole⟩ | ⟨parent, above, isParent, isOlder, isAbove, whole⟩
      · rw [whole]
        simp only [← same, noSuperclass, List.map_cons]
      · have further :=
          inductionHypothesis _ (place ▸ isOlder) (Nat.lt_trans isOlder old) isAbove rfl
        rw [whole]
        simp only [← same, isParent, isOlder, if_true, List.map_cons, further]

theorem Preserves.inheritsFrom_eq (preserves : Preserves older newer)
    (grounded : newer.Grounded described) (wasClass : ∃ before, older.class? id = some before)
    (isClass : ∃ definition, newer.class? id = some definition) :
    older.inheritsFrom id ancestor = newer.inheritsFrom id ancestor := by
  obtain ⟨before, wasClass⟩ := wasClass
  obtain ⟨definition, isClass⟩ := isClass
  have old := index_lt_of_get? (get?_of_class? wasClass)
  rw [Bool.eq_iff_iff, inheritsFrom_iff, inheritsFrom_iff,
    preserves.ids_lineage grounded old isClass]

end Store

namespace Machine

variable {licence : Licence} {machine before after : Machine}

theorem Move.preserves (move : Move licence before after) :
    before.store.Preserves after.store := by
  cases move with
  | quiet quiet =>
      exact quiet.inherits.preserves
  | makeBlock _ _ _ _ | makeClass _ _ _ _ _ _ =>
      exact Store.preserves_alloc _ _
  | assign _ _ _ _ _ | store _ _ _ _ | push _ _ _ | drop _ _ | advance _ _ _ | jump _ _ _
  | call _ _ _ _ _ _ | leave _ | launch _ _ =>
      exact .refl _

theorem Moves.preserves (moves : Moves licence before after) :
    before.store.Preserves after.store := by
  induction moves with
  | refl =>
      exact .refl _
  | tail _ move inductionHypothesis =>
      exact inductionHypothesis.trans move.preserves

theorem preserves_after (config : Config) (refusal : Option String) (commands more : List Command) :
    ((new config refusal).after commands).store.Preserves
      ((new config refusal).after (commands ++ more)).store := by
  rw [after_append]
  exact (moves_after (alike_after config refusal commands) (bounded_after config refusal commands)
    more).preserves

/-! ## Proper ancestors -/

/-- At some time while the commands are carried out, the second class is above the first one. -/
def Above (start : Machine) (commands : List Command) (lower upper : ObjectId) : Prop :=
  upper.index < lower.index ∧ ∃ earlier, earlier <+: commands ∧
    (start.after earlier).store.inheritsFrom lower upper = true

variable {config : Config} {refusal : Option String} {commands : List Command}

theorem Above.trans {lower middle upper : ObjectId}
    (first : (new config refusal).Above commands lower middle)
    (second : (new config refusal).Above commands middle upper) :
    (new config refusal).Above commands lower upper := by
  obtain ⟨isOlder, earlier, isEarlier, inherits⟩ := first
  obtain ⟨isOlderStill, later, isLater, inheritsFurther⟩ := second
  refine ⟨Nat.lt_trans isOlderStill isOlder, earlier, isEarlier, ?_⟩
  have there := Store.exists_class?_ancestor inherits
  have thereToo := Store.exists_class?_of_inheritsFrom inheritsFurther
  have grounded := fun commands => (sourced_after config refusal commands).store
  -- What is above the class in the middle was the same at both times, whichever came first.
  refine (grounded earlier).inheritsFrom_trans inherits ?_
  rcases List.prefix_or_prefix_of_prefix isEarlier isLater with ⟨more, rfl⟩ | ⟨more, rfl⟩
  · rw [(preserves_after config refusal earlier more).inheritsFrom_eq (grounded _) there thereToo]
    exact inheritsFurther
  · rw [← (preserves_after config refusal later more).inheritsFrom_eq (grounded _) thereToo there]
    exact inheritsFurther

end Machine

/-! ## Methods and their classes -/

/-- A program belongs to no class, and a method to the class that has it. -/
structure Frame.Placed (store : Store) (frame : Frame) : Prop where
  program : frame.kind = .topLevel → frame.owner = none
  method : frame.kind = .method → ∃ owner, frame.owner = some owner ∧
    owner.index < store.cells.size ∧ ∀ object, store.get? owner = some object →
      ∃ definition selector method, object = .classObject definition ∧
        definition.method? frame.classSide selector = some method ∧ frame.code = method.body

theorem Frame.Placed.preserves {older newer : Store} {frame : Frame} (placed : frame.Placed older)
    (preserves : older.Preserves newer) : frame.Placed newer := by
  refine ⟨placed.program, fun isMethod => ?_⟩
  obtain ⟨owner, isOwner, old, ofClass⟩ := placed.method isMethod
  refine ⟨owner, isOwner, Nat.lt_of_lt_of_le old preserves.size_le, fun object found => ?_⟩
  obtain ⟨was, wasFound, same⟩ := preserves.same old found
  obtain ⟨before, selector, method, rfl, isFound, isCode⟩ := ofClass was wasFound
  obtain ⟨definition, rfl, _⟩ := Object.eq_classObject_of_cleared same
  obtain ⟨_, wasClass, _, sameMethods⟩ := preserves.class? old (Store.class?_of_get? found)
  cases (Store.get?_of_class? wasClass).symm.trans wasFound
  exact ⟨definition, selector, method, rfl, (sameMethods _ _).trans isFound, isCode⟩

namespace Machine

variable {licence : Licence} {machine before after : Machine}

/-- An activation that begins has its place. -/
theorem Runs.placed {frame : Frame} {arguments : Nat} {outer : Option ContextId}
    (runs : machine.Runs licence frame arguments outer) : frame.Placed machine.store := by
  cases runs with
  | @method _ owner selector definition method _ found isOwner isMethod isCode _ _ _ =>
      obtain ⟨isClass, isFound⟩ := Store.method?_of_lookup found
      have present := Store.get?_of_class? isClass
      refine ⟨fun isProgram => ?_, fun _ => ⟨owner, isOwner, Store.index_lt_of_get? present, ?_⟩⟩
      · cases isMethod.symm.trans isProgram
      · intro object same
        cases present.symm.trans same
        exact ⟨definition, selector, method, rfl, isFound, isCode⟩
  | block _ isBlock _ _ _ =>
      refine ⟨fun isProgram => ?_, fun isMethod => ?_⟩
      · cases isBlock.symm.trans isProgram
      · cases isBlock.symm.trans isMethod

/-- Every activation has its place. -/
def Placed (machine : Machine) : Prop :=
  ∀ activation ∈ machine.activations, activation.Placed machine.store

theorem Move.placed (move : Move licence before after) (placed : before.Placed) :
    after.Placed := by
  have kept : ∀ activation ∈ before.activations, activation.Placed after.store :=
    fun activation member => (placed activation member).preserves move.preserves
  cases move.turn with
  | keep _ suffix =>
      exact fun activation member => kept activation (suffix.mem member)
  | @enter frame _ _ _ _ runs _ _ _ entered =>
      unfold Placed
      rw [entered, List.forall_mem_cons]
      have new := runs.placed.preserves move.preserves
      exact ⟨⟨new.program, new.method⟩, kept⟩
  | @begin frame _ _ _ isProgram _ noOwner _ begun =>
      unfold Placed
      rw [begun, List.forall_mem_singleton]
      refine ⟨fun _ => noOwner, fun isMethod => ?_⟩
      cases isProgram.symm.trans isMethod

theorem placed_after (config : Config) (refusal : Option String) (commands : List Command) :
    ((new config refusal).after commands).Placed := by
  have nothing : (new config refusal).Placed :=
    fun _ impossible => (List.not_mem_nil impossible).elim
  exact holds_after config refusal nothing (fun move => move.placed) commands

end Machine

end Missive
