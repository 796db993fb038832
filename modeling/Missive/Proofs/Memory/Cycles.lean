import Missive.Proofs.Memory.Release

/-!
# The collection of cycles is exact

A population is a store together with the references from outside that its owner holds.  It
changes when an object is created from what is there, when the slots of an object change, when an
object is tracked, when a reference from outside is taken or dropped, and when the store is
collected; after each of these, what nothing refers to any more is released at once.

A collection clears exactly the tracked objects to which no root leads, where a root is a tracked
object with more references to it than the tracked objects have.  That clearing frees all of them
rests on one fact about how populations grow: what an object refers to outside its slots (the
class of an instance, the receiver and the class of a block, the superclass of a class) is older
than the object.  If cleared objects were left, the youngest of them would have something that
refers to it.  That cannot be a reference from outside, nor an object that was not cleared, for
these make it reachable from a root.  And a cleared object refers only to older ones.
-/

namespace Missive

/-! ## Populations -/

/-- A change of the slots of an object. -/
inductive Mutation where
  | items (values : List Value)
  | entries (pairs : List (Value × Value))
  | field (index : Nat) (value : Value)
  | classVar (name : String) (value : Value)

/-- The object after the change; one without such slots stays as it is. -/
def Mutation.apply : Mutation → Object → Object
  | .items values, .array _ => .array values
  | .entries pairs, .dictionary _ => .dictionary pairs
  | .field index value, .record classId fields => .record classId (fields.set index value)
  | .classVar name value, .classObject definition =>
    .classObject (definition.setClassVar name value)
  | _, object => object

theorem Mutation.cleared_apply (mutation : Mutation) (object : Object) :
    (mutation.apply object).cleared = object.cleared := by
  cases mutation with
  | items values => cases object <;> rfl
  | entries pairs => cases object <;> rfl
  | field index value =>
      cases object with
      | record classId fields => exact Object.cleared_set_field classId fields index value
      | array _ | dictionary _ | block _ | classObject _ => rfl
  | classVar name value =>
      cases object with
      | classObject definition => exact Object.cleared_setClassVar definition name value
      | array _ | dictionary _ | block _ | record _ _ => rfl

/-- A store with the references to its objects from outside. -/
structure Population where
  store : Store
  outside : List ObjectId

namespace Population

/-- What can be asked of a population. -/
inductive Request where
  /-- A new object, to which one reference from outside is held. -/
  | create (object : Object)
  | mutate (id : ObjectId) (mutation : Mutation)
  | track (value : Value)
  | hold (id : ObjectId)
  /-- Drops one of the references from outside to an object. -/
  | drop (id : ObjectId)
  | collect

def empty : Population := ⟨.empty, []⟩

/-- Everything in the list is there. -/
def has (population : Population) (ids : List ObjectId) : Bool :=
  ids.all fun id => (population.store.get? id).isSome

/-- The population after a request, before anything is released.  A request that names an object
which is not there changes nothing. -/
def altered (population : Population) : Request → Population
  | .create object =>
    if population.has object.references then
      let (id, store) := population.store.alloc object
      ⟨store, id :: population.outside⟩
    else population
  | .mutate id mutation =>
    match population.store.get? id with
    | some object =>
      if population.has (mutation.apply object).references then
        { population with store := population.store.set id (mutation.apply object) }
      else population
    | none => population
  | .track value =>
    if population.has value.references then
      { population with store := population.store.track value }
    else population
  | .hold id =>
    if population.has [id] then { population with outside := id :: population.outside }
    else population
  | .drop id => { population with outside := population.outside.erase id }
  | .collect => { population with store := (population.store.collect population.outside).2 }

/-- The population after a request. -/
def serve (population : Population) (request : Request) : Population :=
  let next := population.altered request
  { next with store := next.store.release next.outside }

/-- The population after requests. -/
def served (population : Population) (requests : List Request) : Population :=
  requests.foldl serve population

end Population

namespace Store

variable {store : Store} {outside : List ObjectId}

/-! ## What every population keeps -/

/-- What an object refers to outside its slots is older than the object. -/
def Ordered (store : Store) : Prop :=
  ∀ id object, store.get? id = some object →
    ∀ older ∈ object.cleared.references, older.index < id.index

theorem Ordered.of_origin {earlier later : Store} (ordered : Ordered earlier)
    (origin : ∀ id object, later.get? id = some object →
      ∃ before, earlier.get? id = some before ∧ object.cleared = before.cleared) :
    Ordered later := by
  intro id object found older member
  obtain ⟨before, foundBefore, same⟩ := origin id object found
  rw [same] at member
  exact ordered id before foundBefore older member

theorem mem_references_of_cleared {object : Object} {id : ObjectId}
    (member : id ∈ object.cleared.references) : id ∈ object.references := by
  cases object with
  | array items =>
      exact (List.not_mem_nil member).elim
  | dictionary entries =>
      exact (List.not_mem_nil member).elim
  | block closure =>
      exact member
  | record classId fields =>
      have isClass : id = classId := by
        simpa [Object.cleared, Object.references, Value.references] using member
      rw [isClass]
      exact List.mem_append_right _ List.mem_cons_self
  | classObject definition =>
      have isSuperclass : id ∈ definition.superclass.toList := by
        simpa [Object.cleared, Object.references, List.flatMap_map, Value.references] using member
      exact List.mem_append_right _ isSuperclass

theorem Closed.alloc (closed : Closed store outside) {object : Object}
    (present : ∀ id ∈ object.references, (store.get? id).isSome = true) :
    Closed (store.alloc object).2 ((store.alloc object).1 :: outside) := by
  have stays : ∀ id, (store.get? id).isSome = true →
      ((store.alloc object).2.get? id).isSome = true := by
    intro id isThere
    obtain ⟨found, isFound⟩ := Option.isSome_iff_exists.mp isThere
    rw [get?_alloc_of_some object isFound]
    rfl
  constructor
  · intro id member
    rcases List.mem_cons.mp member with rfl | old
    · rw [get?_alloc_new]
      rfl
    · exact stays id (closed.outer id old)
  · intro holder found isFound id member
    rcases get?_alloc_cases isFound with rfl | old
    · exact stays id (present id member)
    · exact stays id (closed.inner holder found old id member)

theorem Ordered.alloc (ordered : Ordered store) {object : Object}
    (present : ∀ id ∈ object.references, (store.get? id).isSome = true) :
    Ordered (store.alloc object).2 := by
  intro id found isFound older member
  rw [get?_alloc] at isFound
  split at isFound
  · rename_i new
    cases isFound
    obtain ⟨before, foundBefore⟩ :=
      Option.isSome_iff_exists.mp (present older (mem_references_of_cleared member))
    rw [new]
    exact index_lt_of_get? foundBefore
  · exact ordered id found isFound older member

theorem isSome_get?_set {id : ObjectId} {old : Object} (found : store.get? id = some old)
    (object : Object) (other : ObjectId) :
    ((store.set id object).get? other).isSome = (store.get? other).isSome := by
  by_cases here : other = id
  · rw [here, get?_set_self object found, found]
    rfl
  · rw [get?_set_of_ne object here]

theorem Closed.set (closed : Closed store outside) {id : ObjectId} {old object : Object}
    (found : store.get? id = some old)
    (present : ∀ other ∈ object.references, (store.get? other).isSome = true) :
    Closed (store.set id object) outside := by
  constructor
  · intro other member
    rw [isSome_get?_set found]
    exact closed.outer other member
  · intro holder contents isFound other member
    rw [isSome_get?_set found]
    by_cases here : holder = id
    · rw [here, get?_set_self object found] at isFound
      cases isFound
      exact present other member
    · rw [get?_set_of_ne object here] at isFound
      exact closed.inner holder contents isFound other member

theorem Ordered.set (ordered : Ordered store) {id : ObjectId} {old object : Object}
    (found : store.get? id = some old) (same : object.cleared = old.cleared) :
    Ordered (store.set id object) := by
  apply ordered.of_origin
  intro other contents isFound
  by_cases here : other = id
  · rw [here, get?_set_self object found] at isFound
    cases isFound
    exact ⟨old, here ▸ found, same⟩
  · rw [get?_set_of_ne object here] at isFound
    exact ⟨contents, isFound, rfl⟩

theorem Ordered.release (ordered : Ordered store) : Ordered (store.release outside) :=
  ordered.of_origin fun _ object found => ⟨object, get?_of_get?_release found, rfl⟩

theorem Closed.of_get?_eq {other : Store} (closed : Closed store outside)
    (same : ∀ id, other.get? id = store.get? id) : Closed other outside := by
  constructor
  · intro id member
    rw [same]
    exact closed.outer id member
  · intro holder object found id member
    rw [same] at found ⊢
    exact closed.inner holder object found id member

theorem Closed.clear (closed : Closed store outside) (id : ObjectId) :
    Closed (store.clear id) outside := by
  unfold Store.clear
  split
  · rename_i object found
    exact closed.set found fun other member =>
      closed.inner id object found other (mem_references_of_cleared member)
  · exact closed

theorem Closed.foldl_clear (closed : Closed store outside) (ids : List ObjectId) :
    Closed (ids.foldl Store.clear store) outside := by
  induction ids generalizing store with
  | nil =>
      exact closed
  | cons head rest inductionHypothesis =>
      exact inductionHypothesis (closed.clear head)

/-- Clearing objects drops what their slots hold. -/
theorem get?_foldl_clear_of_mem (ids : List ObjectId) (store : Store) {id : ObjectId}
    (member : id ∈ ids) :
    (ids.foldl clear store).get? id = (store.get? id).map Object.cleared := by
  have once : ∀ store : Store, (store.clear id).get? id = (store.get? id).map Object.cleared := by
    intro store
    unfold clear
    cases found : store.get? id with
    | none =>
        exact found
    | some object =>
        exact get?_set_self _ found
  induction ids generalizing store with
  | nil =>
      exact (List.not_mem_nil member).elim
  | cons head rest inductionHypothesis =>
      rw [List.foldl_cons]
      by_cases again : id ∈ rest
      · rw [inductionHypothesis _ again]
        by_cases here : head = id
        · rw [here, once, Option.map_map]
          congr 1
          funext object
          exact object.cleared_cleared
        · rw [get?_clear_of_ne store (Ne.symm here)]
      · have here : id = head := (List.mem_cons.mp member).resolve_right again
        rw [get?_foldl_clear_of_not_mem rest _ again, ← here, once]

theorem Ordered.foldl_clear (ordered : Ordered store) (ids : List ObjectId) :
    Ordered (ids.foldl Store.clear store) := by
  apply ordered.of_origin
  intro id object found
  by_cases member : id ∈ ids
  · rw [get?_foldl_clear_of_mem ids store member] at found
    obtain ⟨before, foundBefore, rfl⟩ := Option.map_eq_some_iff.mp found
    exact ⟨before, foundBefore, before.cleared_cleared⟩
  · rw [get?_foldl_clear_of_not_mem ids store member] at found
    exact ⟨object, found, rfl⟩

/-- Every reference leads to an object that is there, and only slots refer to younger objects. -/
structure Grown (store : Store) (outside : List ObjectId) : Prop where
  closed : Closed store outside
  ordered : Ordered store

theorem Grown.release (grown : Grown store outside) : Grown (store.release outside) outside :=
  ⟨(settled_release grown.closed).closed, grown.ordered.release⟩

theorem Grown.foldl_clear (grown : Grown store outside) (ids : List ObjectId) :
    Grown (ids.foldl Store.clear store) outside :=
  ⟨grown.closed.foldl_clear ids, grown.ordered.foldl_clear ids⟩

theorem Grown.of_get?_eq {other : Store} (grown : Grown store outside)
    (same : ∀ id, other.get? id = store.get? id) : Grown other outside :=
  ⟨grown.closed.of_get?_eq same,
    grown.ordered.of_origin fun id object found => ⟨object, (same id).symm.trans found, rfl⟩⟩

theorem Grown.collect (grown : Grown store outside) :
    Grown (store.collect outside).2 outside :=
  ((grown.release.foldl_clear _).release).of_get?_eq (get?_forgetGone _)

end Store

namespace Population

variable {population : Population}

theorem isSome_of_has {ids : List ObjectId} (isThere : population.has ids = true) :
    ∀ id ∈ ids, (population.store.get? id).isSome = true :=
  List.all_eq_true.mp isThere

theorem grown_altered (grown : population.store.Grown population.outside) (request : Request) :
    (population.altered request).store.Grown (population.altered request).outside := by
  cases request with
  | create object =>
      rw [altered]
      split
      · rename_i present
        exact ⟨grown.closed.alloc (isSome_of_has present),
          grown.ordered.alloc (isSome_of_has present)⟩
      · exact grown
  | mutate id mutation =>
      rw [altered]
      split
      · rename_i object found
        split
        · rename_i present
          exact ⟨grown.closed.set found (isSome_of_has present),
            grown.ordered.set found (mutation.cleared_apply object)⟩
        · exact grown
      · exact grown
  | track value =>
      rw [altered]
      split
      · exact grown.of_get?_eq (Store.get?_track population.store value)
      · exact grown
  | hold id =>
      rw [altered]
      split
      · rename_i present
        refine ⟨⟨fun other member => ?_, grown.closed.inner⟩, grown.ordered⟩
        rcases List.mem_cons.mp member with rfl | old
        · exact isSome_of_has present other List.mem_cons_self
        · exact grown.closed.outer other old
      · exact grown
  | drop id =>
      exact ⟨⟨fun other member => grown.closed.outer other (List.mem_of_mem_erase member),
        grown.closed.inner⟩, grown.ordered⟩
  | collect =>
      exact grown.collect

/-- What holds of every population that requests lead to. -/
def Kept (population : Population) : Prop :=
  population.store.Settled population.outside ∧ population.store.Ordered

theorem Kept.serve (kept : Kept population) (request : Request) :
    Kept (population.serve request) := by
  have grown := grown_altered ⟨kept.1.closed, kept.2⟩ request
  exact ⟨Store.settled_release grown.closed, grown.ordered.release⟩

theorem Kept.served (kept : Kept population) (requests : List Request) :
    Kept (population.served requests) := by
  induction requests generalizing population with
  | nil =>
      exact kept
  | cons request rest inductionHypothesis =>
      exact inductionHypothesis (kept.serve request)

theorem kept_empty : Kept empty := by
  have nothing : ∀ id, empty.store.get? id = none := fun _ => rfl
  refine ⟨⟨⟨fun id member => (List.not_mem_nil member).elim, ?_⟩, ?_⟩, ?_⟩
  · intro holder object found
    rw [nothing] at found
    cases found
  · intro id present
    rw [nothing] at present
    cases present
  · intro id object found
    rw [nothing] at found
    cases found

end Population

namespace Store

variable {store : Store} {outside : List ObjectId}

/-! ## Roots -/

/-- The references that tracked objects have. -/
def trackedReferences (store : Store) : List ObjectId :=
  (store.cells.toList.filter (·.tracked)).flatMap cellReferences

/-- A tracked object to which there are more references than the tracked objects have. -/
structure Root (store : Store) (outside : List ObjectId) (id : ObjectId) : Prop where
  present : (store.get? id).isSome = true
  tracked : store.isTracked id = true
  held : store.trackedReferences.count id < store.referenceCount outside id

/-- References from outside and from objects that are not tracked are those that the references
of tracked objects leave over. -/
theorem mem_held_iff_count_lt {id : ObjectId} :
    id ∈ store.held outside ↔
      store.trackedReferences.count id < store.referenceCount outside id := by
  have split : ∀ cells : List Cell, (cells.flatMap cellReferences).count id =
      ((cells.filter (·.tracked)).flatMap cellReferences).count id +
        ((cells.filter fun cell => !cell.tracked).flatMap cellReferences).count id := by
    intro cells
    induction cells with
    | nil =>
        rfl
    | cons cell rest inductionHypothesis =>
        cases isTracked : cell.tracked with
        | true =>
            simp only [List.flatMap_cons, List.filter_cons, isTracked, List.count_append,
              inductionHypothesis, if_true, Bool.not_true, if_neg Bool.false_ne_true]
            omega
        | false =>
            simp only [List.flatMap_cons, List.filter_cons, isTracked, List.count_append,
              inductionHypothesis, if_true, Bool.not_false, if_neg Bool.false_ne_true]
            omega
  have untracked : (∃ holder object, store.get? holder = some object ∧
      store.isTracked holder = false ∧ id ∈ object.references) ↔
      0 < ((store.cells.toList.filter fun cell => !cell.tracked).flatMap
        cellReferences).count id := by
    rw [← exists_cellReferences_iff store id (· = false), List.count_pos_iff]
    simp [List.mem_flatMap, and_assoc]
  have total := split store.cells.toList
  rw [mem_held_iff, untracked, ← List.count_pos_iff, referenceCount, innerReferences,
    trackedReferences]
  omega

theorem mem_garbage_iff {id : ObjectId} :
    id ∈ store.garbage outside ↔ (store.get? id).isSome = true ∧ store.isTracked id = true ∧
      ¬ ∃ root, store.Root outside root ∧ Leads store.successors root id := by
  have roots : ∀ root, root ∈ store.trackedIds ∧ root ∈ store.held outside ↔
      store.Root outside root := by
    intro root
    rw [mem_trackedIds, mem_held_iff_count_lt]
    exact ⟨fun ⟨⟨present, tracked⟩, held⟩ => ⟨present, tracked, held⟩,
      fun root => ⟨⟨root.present, root.tracked⟩, root.held⟩⟩
  have used : (!(store.inUse outside).contains id) = true ↔
      ¬ ∃ root, store.Root outside root ∧ Leads store.successors root id := by
    rw [Bool.not_eq_true', ← Bool.not_eq_true, Std.HashSet.contains_iff_mem, mem_inUse_iff]
    simp only [roots]
  unfold garbage
  rw [List.mem_filter, mem_trackedIds, used, and_assoc]

theorem nodup_garbage (store : Store) (outside : List ObjectId) :
    (store.garbage outside).Nodup :=
  ((nodup_ids store).filter _).filter _

/-- Only what is garbage itself refers to garbage. -/
theorem mem_garbage_of_reference {holder id : ObjectId} {object : Object}
    (found : store.get? holder = some object) (reference : id ∈ object.references)
    (member : id ∈ store.garbage outside) : holder ∈ store.garbage outside := by
  obtain ⟨present, tracked, unreached⟩ := mem_garbage_iff.mp member
  have holderPresent : (store.get? holder).isSome = true := by
    rw [found]
    rfl
  have holderTracked : store.isTracked holder = true := by
    apply Bool.eq_true_of_not_eq_false
    intro untracked
    have isHeld : id ∈ store.held outside :=
      mem_held_iff.mpr (Or.inr ⟨holder, object, found, untracked, reference⟩)
    exact unreached ⟨id, ⟨present, tracked, mem_held_iff_count_lt.mp isHeld⟩, Leads.refl id⟩
  refine mem_garbage_iff.mpr ⟨holderPresent, holderTracked, ?_⟩
  rintro ⟨root, isRoot, way⟩
  exact unreached ⟨root, isRoot,
    way.step (mem_successors.mpr ⟨object, found, reference, present⟩)⟩

/-! ## Clearing frees the garbage -/

/-- The store when garbage is cleared and what then goes away is released. -/
def swept (store : Store) (outside : List ObjectId) : Store :=
  ((store.garbage outside).foldl clear store).release outside

theorem Settled.collect_eq (settled : Settled store outside) :
    store.collect outside =
      ((store.garbage outside).length, (store.swept outside).forgetGone) := by
  unfold collect
  rw [settled.release_eq]
  rfl

/-- No garbage is left: the youngest piece of it would have an object that refers to it. -/
theorem get?_swept_of_garbage (closed : Closed store outside) (ordered : Ordered store)
    {id : ObjectId} (member : id ∈ store.garbage outside) :
    (store.swept outside).get? id = none := by
  have settled : Settled (store.swept outside) outside :=
    settled_release (closed.foldl_clear (store.garbage outside))
  -- induction from the youngest identity down, counted by its distance from the end
  induction place : store.cells.size - id.index using Nat.strongRecOn generalizing id with
  | ind distance inductionHypothesis =>
      cases left : (store.swept outside).get? id with
      | none =>
          rfl
      | some object =>
          exfalso
          have referred := settled.referred id (by rw [left]; rfl)
          rcases referenceCount_pos_iff.mp referred with isOutside |
            ⟨holder, contents, found, reference⟩
          · have present := (mem_garbage_iff.mp member).1
            exact not_mem_garbage_of_held (Held.of_mem isOutside present) member
          · have cleared : ((store.garbage outside).foldl clear store).get? holder =
                some contents := get?_of_get?_release found
            by_cases holderCleared : holder ∈ store.garbage outside
            · rw [get?_foldl_clear_of_mem _ _ holderCleared] at cleared
              obtain ⟨before, foundBefore, rfl⟩ := Option.map_eq_some_iff.mp cleared
              have older := ordered holder before foundBefore id reference
              have inside := index_lt_of_get? foundBefore
              have gone := inductionHypothesis (store.cells.size - holder.index) (by omega)
                holderCleared rfl
              rw [gone] at found
              cases found
            · rw [get?_foldl_clear_of_not_mem _ _ holderCleared] at cleared
              exact holderCleared (mem_garbage_of_reference cleared reference member)

/-- What is left is as it was, and none of it is garbage. -/
theorem of_get?_swept (closed : Closed store outside) (ordered : Ordered store) {id : ObjectId}
    {object : Object} (found : (store.swept outside).get? id = some object) :
    id ∉ store.garbage outside ∧ store.get? id = some object := by
  have notGarbage : id ∉ store.garbage outside := by
    intro member
    rw [get?_swept_of_garbage closed ordered member] at found
    cases found
  refine ⟨notGarbage, ?_⟩
  rw [← get?_foldl_clear_of_not_mem _ _ notGarbage]
  exact get?_of_get?_release found

/-- What is left are the objects of a set without garbage, to each of which something refers that
stays. -/
theorem isSome_get?_swept_iff (closed : Closed store outside) (ordered : Ordered store)
    {id : ObjectId} :
    ((store.swept outside).get? id).isSome = true ↔
      ∃ kept : ObjectId → Prop, Supported store outside kept ∧
        (∀ other, kept other → other ∉ store.garbage outside) ∧ kept id := by
  constructor
  · intro present
    refine ⟨fun other => ((store.swept outside).get? other).isSome = true, ⟨?_, ?_⟩, ?_, present⟩
    · intro other otherPresent
      obtain ⟨object, found⟩ := Option.isSome_iff_exists.mp otherPresent
      exact ⟨object, (of_get?_swept closed ordered found).2⟩
    · intro other otherPresent
      have settled := settled_release (closed.foldl_clear (store.garbage outside))
      rcases referenceCount_pos_iff.mp (settled.referred other otherPresent) with isOutside |
        ⟨holder, contents, found, reference⟩
      · exact Or.inl isOutside
      · refine Or.inr ⟨holder, contents, ?_, (of_get?_swept closed ordered found).2, reference⟩
        exact Option.isSome_iff_exists.mpr ⟨contents, found⟩
    · intro other otherPresent
      obtain ⟨object, found⟩ := Option.isSome_iff_exists.mp otherPresent
      exact (of_get?_swept closed ordered found).1
  · rintro ⟨kept, supported, apart, isKept⟩
    have unchanged : ∀ other, kept other →
        ((store.garbage outside).foldl clear store).get? other = store.get? other :=
      fun other otherKept => get?_foldl_clear_of_not_mem _ _ (apart other otherKept)
    have supportedAfter :
        Supported ((store.garbage outside).foldl clear store) outside kept := by
      constructor
      · intro other otherKept
        rw [unchanged other otherKept]
        exact supported.present other otherKept
      · intro other otherKept
        rcases supported.support other otherKept with member |
          ⟨holder, object, holderKept, found, reference⟩
        · exact Or.inl member
        · exact Or.inr ⟨holder, object, holderKept, (unchanged holder holderKept).trans found,
            reference⟩
    have stays := get?_release_of_kept supportedAfter isKept
    rw [swept, stays, unchanged id isKept]
    exact Option.isSome_iff_exists.mpr (supported.present id isKept)

/-! ## Tracked objects -/

theorem isTracked_eq (store : Store) (id : ObjectId) :
    store.isTracked id = (store.cells[id.index]?.map Cell.tracked).getD false := by
  unfold isTracked
  cases store.cells[id.index]? with
  | none => rfl
  | some cell => rfl

theorem isTracked_set (store : Store) (id other : ObjectId) (object : Object) :
    (store.set id object).isTracked other = store.isTracked other := by
  simp only [isTracked_eq, Store.set, Array.getElem?_modify]
  split
  · rw [Option.map_map]
    rfl
  · rfl

theorem isTracked_erase (store : Store) (id other : ObjectId) :
    (store.erase id).isTracked other = store.isTracked other := by
  simp only [isTracked_eq, Store.erase, Array.getElem?_modify]
  split
  · rw [Option.map_map]
    rfl
  · rfl

theorem isTracked_foldl_clear (ids : List ObjectId) (store : Store) (other : ObjectId) :
    (ids.foldl clear store).isTracked other = store.isTracked other := by
  induction ids generalizing store with
  | nil =>
      rfl
  | cons head rest inductionHypothesis =>
      rw [List.foldl_cons, inductionHypothesis, clear]
      split
      · exact isTracked_set store head other _
      · rfl

theorem isTracked_releaseFrom (fuel : Nat) (work : List ObjectId) (counts : Array Nat)
    (store : Store) (other : ObjectId) :
    (releaseFrom fuel work counts store).isTracked other = store.isTracked other := by
  fun_induction releaseFrom fuel work counts store with
  | case1 counts store remaining head rest object found removed lowered lowering
      inductionHypothesis =>
      rw [inductionHypothesis, isTracked_erase]
  | case2 counts store remaining head rest gone inductionHypothesis =>
      exact inductionHypothesis
  | case3 =>
      rfl

theorem isTracked_swept (store : Store) (outside : List ObjectId) (id : ObjectId) :
    (store.swept outside).isTracked id = store.isTracked id := by
  rw [swept, release]
  exact (isTracked_releaseFrom _ _ _ _ id).trans (isTracked_foldl_clear _ store id)

theorem isTracked_forgetGone (store : Store) (id : ObjectId) :
    store.forgetGone.isTracked id = (store.isTracked id && (store.get? id).isSome) := by
  rw [isTracked_eq, isTracked_eq, get?_eq_bind, forgetGone]
  dsimp only
  rw [Array.getElem?_map]
  cases store.cells[id.index]? with
  | none => rfl
  | some cell => rfl

theorem trackedCount_forgetGone (store : Store) :
    store.forgetGone.trackedCount = store.forgetGone.liveCount := by
  rw [forgetGone, liveCount]
  simp only [Array.countP_map]
  apply Array.countP_congr
  intro cell _
  simp

/-! ## The whole collection -/

/-- What a collection that clears the given objects makes of a store. -/
structure Collected (store : Store) (outside cleared : List ObjectId) (after : Store) : Prop where
  nodup : cleared.Nodup
  /-- The cleared objects are the tracked ones to which no root leads. -/
  mem_iff : ∀ id, id ∈ cleared ↔ (store.get? id).isSome = true ∧ store.isTracked id = true ∧
    ¬ ∃ root, store.Root outside root ∧ Leads store.successors root id
  not_held : ∀ id ∈ cleared, ¬ store.Held outside id
  /-- What is left afterwards is as it was, and all that was cleared has gone. -/
  unchanged : ∀ id object, after.get? id = some object →
    id ∉ cleared ∧ store.get? id = some object
  /-- An object is left exactly when something that stays refers to it. -/
  left_iff : ∀ id, (after.get? id).isSome = true ↔
    ∃ kept : ObjectId → Prop, Supported store outside kept ∧
      (∀ other, kept other → other ∉ cleared) ∧ kept id
  tracked_iff : ∀ id, after.isTracked id = true ↔
    store.isTracked id = true ∧ (after.get? id).isSome = true
  counted : after.trackedCount = after.liveCount

theorem collected_forgetGone_swept (closed : Closed store outside) (ordered : Ordered store) :
    Collected store outside (store.garbage outside) (store.swept outside).forgetGone where
  nodup := nodup_garbage store outside
  mem_iff := fun _ => mem_garbage_iff
  not_held := fun _ member held => not_mem_garbage_of_held held member
  unchanged := by
    intro id object found
    rw [get?_forgetGone] at found
    exact of_get?_swept closed ordered found
  left_iff := by
    intro id
    rw [get?_forgetGone]
    exact isSome_get?_swept_iff closed ordered
  tracked_iff := by
    intro id
    rw [isTracked_forgetGone, isTracked_swept, get?_forgetGone, Bool.and_eq_true]
  counted := trackedCount_forgetGone _

end Store

namespace Population

/-- Whatever was asked of a population before, a collection clears exactly the tracked objects to
which no root leads, answers how many they are, and leaves everything else as it is; all that it
cleared has gone when it ends. -/
theorem collect_clears_garbage (requests : List Request) :
    let population := empty.served requests
    let (count, after) := population.store.collect population.outside
    ∃ cleared : List ObjectId, count = cleared.length ∧
      Store.Collected population.store population.outside cleared after := by
  intro population
  have kept : Kept population := kept_empty.served requests
  rw [kept.1.collect_eq]
  exact ⟨population.store.garbage population.outside, rfl,
    Store.collected_forgetGone_swept kept.1.closed kept.2⟩

end Population

end Missive
