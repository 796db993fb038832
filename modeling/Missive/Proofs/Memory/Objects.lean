import Missive.Memory.Objects
import Missive.Proofs.Memory.Reach
import Missive.Proofs.Object.Store

/-!
# The collection of objects keeps what is held

An object is held when a way leads to it from a reference outside the store.  A collection leaves
every held object as it is.

Two parts of a collection could do harm.  Releasing removes an object when no reference to it is
counted any more.  The counts are never below the number of references that there are, and a held
object always has one: from outside, or from a held object that is still there.  Clearing empties
tracked objects that cannot be reached from a root.  On the way to a held object that is tracked
the first tracked object is a root, because what leads to it is outside or not tracked.
-/

namespace Missive

namespace Store

/-! ## Counting references -/

/-- The references of the object in a cell. -/
def cellReferences (cell : Cell) : List ObjectId :=
  match cell.object with
  | some object => object.references
  | none => []

/-- All references between objects of the store. -/
def innerReferences (store : Store) : List ObjectId :=
  store.cells.toList.flatMap cellReferences

/-- How many references there are to an object, from outside and from objects. -/
def referenceCount (store : Store) (outside : List ObjectId) (id : ObjectId) : Nat :=
  outside.count id + store.innerReferences.count id

/-- A reference in a cell is one of an object that is there. -/
theorem exists_cellReferences_iff (store : Store) (id : ObjectId) (kind : Bool → Prop) :
    (∃ cell ∈ store.cells.toList, kind cell.tracked ∧ id ∈ cellReferences cell) ↔
      ∃ holder object, store.get? holder = some object ∧ kind (store.isTracked holder) ∧
        id ∈ object.references := by
  constructor
  · rintro ⟨cell, cellMember, isKind, reference⟩
    obtain ⟨index, inside, atIndex⟩ := List.getElem_of_mem cellMember
    have atCell : store.cells[index]? = some cell := by
      rw [← Array.getElem?_toList, List.getElem?_eq_getElem inside, atIndex]
    unfold cellReferences at reference
    cases content : cell.object with
    | none =>
        rw [content] at reference
        exact (List.not_mem_nil reference).elim
    | some object =>
        rw [content] at reference
        refine ⟨⟨index⟩, object, ?_, ?_, reference⟩
        · rw [get?_eq_bind, atCell]
          exact content
        · rw [isTracked, atCell]
          exact isKind
  · rintro ⟨holder, object, found, isKind, reference⟩
    rw [get?_eq_bind] at found
    obtain ⟨cell, atCell, content⟩ := Option.bind_eq_some_iff.mp found
    refine ⟨cell, Array.mem_toList_iff.mpr (Array.mem_of_getElem? atCell), ?_, ?_⟩
    · rw [isTracked, atCell] at isKind
      exact isKind
    · rw [cellReferences, content]
      exact reference

theorem mem_innerReferences_iff {store : Store} {id : ObjectId} :
    id ∈ store.innerReferences ↔
      ∃ holder object, store.get? holder = some object ∧ id ∈ object.references := by
  rw [innerReferences, List.mem_flatMap]
  simpa only [true_and] using exists_cellReferences_iff store id fun _ => True

theorem mem_innerReferences {store : Store} {holder id : ObjectId} {object : Object}
    (found : store.get? holder = some object) (member : id ∈ object.references) :
    id ∈ store.innerReferences :=
  mem_innerReferences_iff.mpr ⟨holder, object, found, member⟩

/-- Removing an object removes its references. -/
theorem count_innerReferences_erase {store : Store} {erased : ObjectId} {object : Object}
    (found : store.get? erased = some object) (id : ObjectId) :
    (store.erase erased).innerReferences.count id + object.references.count id =
      store.innerReferences.count id := by
  have inside : erased.index < store.cells.toList.length := by
    rw [Array.length_toList]
    exact index_lt_of_get? found
  have content : cellReferences store.cells.toList[erased.index] = object.references := by
    rw [get?_eq_bind, ← Array.getElem?_toList, List.getElem?_eq_getElem inside] at found
    have cellObject : store.cells.toList[erased.index].object = some object := found
    rw [cellReferences, cellObject]
  have split : store.cells.toList =
      store.cells.toList.take erased.index ++ store.cells.toList[erased.index] ::
        store.cells.toList.drop (erased.index + 1) := by
    rw [← List.drop_eq_getElem_cons inside, List.take_append_drop]
  have before : store.innerReferences.count id =
      ((store.cells.toList.take erased.index).flatMap cellReferences).count id +
        (object.references.count id +
          ((store.cells.toList.drop (erased.index + 1)).flatMap cellReferences).count id) := by
    rw [innerReferences]
    conv =>
      lhs
      rw [split]
    rw [List.flatMap_append, List.flatMap_cons, List.count_append, List.count_append, content]
  have after : (store.erase erased).innerReferences.count id =
      ((store.cells.toList.take erased.index).flatMap cellReferences).count id +
        ((store.cells.toList.drop (erased.index + 1)).flatMap cellReferences).count id := by
    rw [innerReferences, Store.erase, Array.toList_modify, List.modify_eq_take_cons_drop inside,
      List.flatMap_append, List.flatMap_cons, List.count_append, List.count_append]
    simp [cellReferences]
  omega

theorem beq_iff_index_eq {a b : ObjectId} : (a == b) = true ↔ a.index = b.index :=
  beq_iff_eq.trans ⟨congrArg ObjectId.index, ObjectId.ext_index⟩

theorem getElem?_countMore (counts : Array Nat) (ids : List ObjectId) (id : ObjectId) :
    (countMore counts ids)[id.index]? = counts[id.index]?.map (· + ids.count id) := by
  unfold countMore
  induction ids generalizing counts with
  | nil =>
      simp
  | cons head rest inductionHypothesis =>
      rw [List.foldl_cons, inductionHypothesis, Array.getElem?_modify, List.count_cons]
      by_cases here : head.index = id.index
      · rw [if_pos here, if_pos (beq_iff_index_eq.mpr here), Option.map_map]
        congr 1
        funext count
        simp only [Function.comp_apply]
        omega
      · rw [if_neg here, if_neg (fun same => here (beq_iff_index_eq.mp same)), Nat.add_zero]

/-- The counts at the start of a release are exact. -/
theorem getElem?_referenceCounts (store : Store) (outside : List ObjectId) (id : ObjectId) :
    (store.referenceCounts outside)[id.index]? =
      if id.index < store.cells.size then some (store.referenceCount outside id) else none := by
  have folded : ∀ (cells : List Cell) (counts : Array Nat),
      (cells.foldl (fun counts cell =>
        match cell.object with
        | some object => countMore counts object.references
        | none => counts) counts)[id.index]? =
        counts[id.index]?.map (· + (cells.flatMap cellReferences).count id) := by
    intro cells
    induction cells with
    | nil =>
        intro counts
        simp
    | cons cell rest inductionHypothesis =>
        intro counts
        rw [List.foldl_cons, inductionHypothesis, List.flatMap_cons, List.count_append,
          cellReferences]
        cases cell.object with
        | none =>
            simp
        | some object =>
            dsimp only
            rw [getElem?_countMore, Option.map_map]
            congr 1
            funext count
            simp only [Function.comp_apply]
            omega
  rw [referenceCounts, ← Array.foldl_toList]
  apply (folded store.cells.toList _).trans
  rw [getElem?_countMore, Array.getElem?_replicate]
  split
  · simp [referenceCount, innerReferences]
  · rfl

/-- One reference less: the state after it, with the object if its count has gone. -/
def lowerStep (state : List ObjectId × Array Nat) (id : ObjectId) :
    List ObjectId × Array Nat :=
  match state.2[id.index]? with
  | some count =>
    if count = 1 then (id :: state.1, state.2.setIfInBounds id.index (count - 1))
    else (state.1, state.2.setIfInBounds id.index (count - 1))
  | none => state

theorem countLess_eq_foldl (counts : Array Nat) (ids : List ObjectId) :
    countLess counts ids = ids.foldl lowerStep ([], counts) := rfl

theorem getElem?_lowerStep (state : List ObjectId × Array Nat) (head id : ObjectId) :
    (lowerStep state head).2[id.index]? = state.2[id.index]?.map (· - [head].count id) := by
  rw [List.count_singleton]
  by_cases here : head.index = id.index
  · rw [if_pos (beq_iff_index_eq.mpr here)]
    unfold lowerStep
    cases atHead : state.2[head.index]? with
    | none =>
        rw [← here, atHead]
        rfl
    | some count =>
        have inside : head.index < state.2.size := (Array.getElem?_eq_some_iff.mp atHead).1
        have lowered : (state.2.setIfInBounds head.index (count - 1))[id.index]? =
            some (count - 1) := by
          rw [Array.getElem?_setIfInBounds, if_pos here, if_pos (here ▸ inside)]
        dsimp only
        split
        · rw [lowered, ← here, atHead]
          rfl
        · rw [lowered, ← here, atHead]
          rfl
  · rw [if_neg (fun same => here (beq_iff_index_eq.mp same))]
    unfold lowerStep
    cases state.2[head.index]? with
    | none =>
        simp
    | some count =>
        dsimp only
        split
        · simp [here]
        · simp [here]

theorem getElem?_foldl_lowerStep (ids : List ObjectId) (state : List ObjectId × Array Nat)
    (id : ObjectId) :
    (ids.foldl lowerStep state).2[id.index]? = state.2[id.index]?.map (· - ids.count id) := by
  induction ids generalizing state with
  | nil =>
      simp
  | cons head rest inductionHypothesis =>
      rw [List.foldl_cons, inductionHypothesis, getElem?_lowerStep, Option.map_map]
      congr 1
      funext count
      simp only [Function.comp_apply, List.count_cons, List.count_nil]
      omega

/-- The objects that lowering answers are without a count at the end. -/
theorem unreferenced_foldl_lowerStep (ids : List ObjectId) (state : List ObjectId × Array Nat)
    {id : ObjectId} (member : id ∈ (ids.foldl lowerStep state).1) :
    id ∈ state.1 ∨ (ids.foldl lowerStep state).2[id.index]? = some 0 := by
  induction ids generalizing state with
  | nil =>
      exact Or.inl member
  | cons head rest inductionHypothesis =>
      rw [List.foldl_cons] at member ⊢
      rcases inductionHypothesis (lowerStep state head) member with added | zero
      · unfold lowerStep at added
        cases atHead : state.2[head.index]? with
        | none =>
            rw [atHead] at added
            exact Or.inl added
        | some count =>
            rw [atHead] at added
            dsimp only at added
            split at added
            · rename_i last
              rcases List.mem_cons.mp added with rfl | old
              · apply Or.inr
                rw [getElem?_foldl_lowerStep, getElem?_lowerStep, atHead, last]
                simp
              · exact Or.inl old
            · exact Or.inl added
      · exact Or.inr zero

/-- Lowering the counts leaves those at zero that were there. -/
theorem unreferenced_countLess {counts : Array Nat} {head : ObjectId} {rest : List ObjectId}
    (ids : List ObjectId) (unreferenced : ∀ id ∈ head :: rest, counts[id.index]? = some 0) :
    ∀ id ∈ (countLess counts ids).1 ++ rest, (countLess counts ids).2[id.index]? = some 0 := by
  intro id member
  rw [countLess_eq_foldl] at member ⊢
  rcases List.mem_append.mp member with new | old
  · rcases unreferenced_foldl_lowerStep ids ([], counts) new with impossible | zero
    · exact (List.not_mem_nil impossible).elim
    · exact zero
  · rw [getElem?_foldl_lowerStep, unreferenced id (List.mem_cons_of_mem head old)]
    simp

/-! ## Releasing -/

/-- The counts are not below the number of references. -/
def Counted (store : Store) (outside : List ObjectId) (counts : Array Nat) : Prop :=
  ∀ id count, counts[id.index]? = some count → store.referenceCount outside id ≤ count

/-- A set of objects that are there and to each of which something refers that stays: a reference
from outside or an object of the set. -/
structure Supported (store : Store) (outside : List ObjectId) (kept : ObjectId → Prop) : Prop where
  present : ∀ id, kept id → ∃ object, store.get? id = some object
  support : ∀ id, kept id → id ∈ outside ∨
    ∃ holder object, kept holder ∧ store.get? holder = some object ∧ id ∈ object.references

variable {store : Store} {outside : List ObjectId} {kept : ObjectId → Prop}

theorem Supported.referenceCount_pos (supported : Supported store outside kept) {id : ObjectId}
    (isKept : kept id) : 0 < store.referenceCount outside id := by
  unfold referenceCount
  rcases supported.support id isKept with member | ⟨holder, object, _, found, member⟩
  · have positive : 0 < outside.count id := List.count_pos_iff.mpr member
    omega
  · have positive : 0 < store.innerReferences.count id :=
      List.count_pos_iff.mpr (mem_innerReferences found member)
    omega

theorem Supported.get?_erase_of_kept {removed : ObjectId} (notKept : ¬ kept removed) {id : ObjectId}
    (isKept : kept id) : (store.erase removed).get? id = store.get? id := by
  rw [get?_erase, if_neg]
  intro same
  exact notKept (same ▸ isKept)

theorem Supported.erase (supported : Supported store outside kept) {removed : ObjectId}
    (notKept : ¬ kept removed) : Supported (store.erase removed) outside kept := by
  constructor
  · intro id isKept
    rw [Supported.get?_erase_of_kept notKept isKept]
    exact supported.present id isKept
  · intro id isKept
    rcases supported.support id isKept with member | ⟨holder, object, holderKept, found, member⟩
    · exact Or.inl member
    · refine Or.inr ⟨holder, object, holderKept, ?_, member⟩
      rw [Supported.get?_erase_of_kept notKept holderKept]
      exact found

/-- Lowering the counts by the references of a removed object keeps them high enough. -/
theorem Counted.erase {counts : Array Nat} (counted : Counted store outside counts)
    {removed : ObjectId} {object : Object} (found : store.get? removed = some object) :
    Counted (store.erase removed) outside (countLess counts object.references).2 := by
  intro id count atId
  rw [countLess_eq_foldl, getElem?_foldl_lowerStep] at atId
  obtain ⟨before, atBefore, rfl⟩ := Option.map_eq_some_iff.mp atId
  have bound := counted id before atBefore
  have removedReferences := count_innerReferences_erase found id
  unfold referenceCount at bound ⊢
  omega

/-- Releasing leaves a supported set of objects as it is, where nothing refers to the objects that
are removed first. -/
theorem get?_releaseFrom_of_kept (fuel : Nat) (work : List ObjectId) (counts : Array Nat)
    (store : Store) (supported : Supported store outside kept)
    (counted : Counted store outside counts)
    (unreferenced : ∀ id ∈ work, counts[id.index]? = some 0) {id : ObjectId} (isKept : kept id) :
    (releaseFrom fuel work counts store).get? id = store.get? id := by
  fun_induction releaseFrom fuel work counts store with
  | case1 counts store remaining head rest object found removed lowered lowering
      inductionHypothesis =>
      have headNotKept : ¬ kept head := by
        intro headKept
        have positive := supported.referenceCount_pos headKept
        have bound := counted head 0 (unreferenced head List.mem_cons_self)
        omega
      have loweredCounts : (countLess counts object.references).2 = lowered := by
        rw [lowering]
      have loweredZero := unreferenced_countLess object.references unreferenced
      rw [lowering] at loweredZero
      rw [inductionHypothesis (supported.erase headNotKept)
        (loweredCounts ▸ counted.erase found) loweredZero]
      exact Supported.get?_erase_of_kept headNotKept isKept
  | case2 counts store remaining head rest gone inductionHypothesis =>
      exact inductionHypothesis supported counted
        fun other member => unreferenced other (List.mem_cons_of_mem head member)
  | case3 =>
      rfl

theorem counted_referenceCounts (store : Store) (outside : List ObjectId) :
    Counted store outside (store.referenceCounts outside) := by
  intro other count atOther
  rw [getElem?_referenceCounts] at atOther
  split at atOther
  · cases atOther
    exact Nat.le_refl _
  · cases atOther

theorem get?_release_of_kept (supported : Supported store outside kept) {id : ObjectId}
    (isKept : kept id) : (store.release outside).get? id = store.get? id := by
  refine get?_releaseFrom_of_kept store.cells.size _ _ store supported
    (counted_referenceCounts store outside) (fun other member => ?_) isKept
  exact of_decide_eq_true (List.mem_filter.mp member).2

theorem size_releaseFrom (fuel : Nat) (work : List ObjectId) (counts : Array Nat) (store : Store) :
    (releaseFrom fuel work counts store).cells.size = store.cells.size := by
  fun_induction releaseFrom fuel work counts store with
  | case1 counts store remaining head rest object found removed lowered lowering
      inductionHypothesis =>
      rw [inductionHypothesis, size_erase]
  | case2 counts store remaining head rest gone inductionHypothesis =>
      exact inductionHypothesis
  | case3 =>
      rfl

/-- Only objects are removed to which no other refers. -/
theorem inherits_releaseFrom (fuel : Nat) (work : List ObjectId) (counts : Array Nat)
    (store : Store) (counted : Counted store outside counts)
    (unreferenced : ∀ id ∈ work, counts[id.index]? = some 0) :
    Inherits store (releaseFrom fuel work counts store) := by
  fun_induction releaseFrom fuel work counts store with
  | case1 counts store remaining head rest object found removed lowered lowering
      inductionHypothesis =>
      have headUnreferenced : ∀ holder object, store.get? holder = some object →
          head ∉ object.references := by
        intro holder object isHolder member
        have positive : 0 < store.innerReferences.count head :=
          List.count_pos_iff.mpr (mem_innerReferences isHolder member)
        have bound := counted head 0 (unreferenced head List.mem_cons_self)
        unfold referenceCount at bound
        omega
      have loweredCounts : (countLess counts object.references).2 = lowered := by
        rw [lowering]
      have loweredZero := unreferenced_countLess object.references unreferenced
      rw [lowering] at loweredZero
      exact (inherits_erase headUnreferenced).trans
        (inductionHypothesis (loweredCounts ▸ counted.erase found) loweredZero)
  | case2 counts store remaining head rest gone inductionHypothesis =>
      exact inductionHypothesis counted
        fun other member => unreferenced other (List.mem_cons_of_mem head member)
  | case3 =>
      exact Inherits.refl _

theorem inherits_release (store : Store) (outside : List ObjectId) :
    Inherits store (store.release outside) := by
  refine inherits_releaseFrom store.cells.size _ _ store (counted_referenceCounts store outside)
    fun other member => ?_
  exact of_decide_eq_true (List.mem_filter.mp member).2

/-! ## Held objects -/

/-- A way leads to the object from a reference outside the store. -/
def Held (store : Store) (outside : List ObjectId) (id : ObjectId) : Prop :=
  ∃ root ∈ outside, (store.get? root).isSome = true ∧ Leads store.successors root id

theorem mem_successors {source target : ObjectId} :
    target ∈ store.successors source ↔ ∃ object, store.get? source = some object ∧
      target ∈ object.references ∧ (store.get? target).isSome = true := by
  unfold successors
  cases store.get? source with
  | none =>
      simp
  | some object =>
      simp [List.mem_filter]

/-- What holds of the references from outside and goes from an object to what it refers to holds
of everything held. -/
@[elab_as_elim]
theorem Held.induct {motive : ObjectId → Prop}
    (root : ∀ id ∈ outside, (store.get? id).isSome = true → motive id)
    (step : ∀ holder id object, store.Held outside holder → motive holder →
      store.get? holder = some object → id ∈ object.references →
      (store.get? id).isSome = true → motive id)
    {id : ObjectId} (held : store.Held outside id) : motive id := by
  obtain ⟨start, member, present, way⟩ := held
  induction way with
  | refl =>
      exact root start member present
  | tail earlier next inductionHypothesis =>
      obtain ⟨object, found, reference, targetPresent⟩ := mem_successors.mp next
      exact step _ _ object ⟨start, member, present, earlier⟩ inductionHypothesis found reference
        targetPresent

theorem Held.of_mem {id : ObjectId} (member : id ∈ outside)
    (present : (store.get? id).isSome = true) : store.Held outside id :=
  ⟨id, member, present, Leads.refl id⟩

theorem Held.step {holder id : ObjectId} {object : Object} (held : store.Held outside holder)
    (found : store.get? holder = some object) (member : id ∈ object.references)
    (present : (store.get? id).isSome = true) : store.Held outside id := by
  obtain ⟨start, startMember, startPresent, way⟩ := held
  exact ⟨start, startMember, startPresent,
    way.step (mem_successors.mpr ⟨object, found, member, present⟩)⟩

theorem supported_held (store : Store) (outside : List ObjectId) :
    Supported store outside (store.Held outside) := by
  constructor
  · intro id held
    refine held.induct ?_ ?_
    · intro root _ present
      exact Option.isSome_iff_exists.mp present
    · intro _ _ _ _ _ _ _ present
      exact Option.isSome_iff_exists.mp present
  · intro id held
    refine held.induct ?_ ?_
    · intro root member _
      exact Or.inl member
    · intro holder _ object holderHeld _ found member _
      exact Or.inr ⟨holder, object, holderHeld, found, member⟩

/-- A store in which all held objects are as before holds them as well. -/
theorem Held.transfer {later : Store}
    (unchanged : ∀ id, store.Held outside id → later.get? id = store.get? id) {id : ObjectId}
    (held : store.Held outside id) : later.Held outside id := by
  refine held.induct ?_ ?_
  · intro root member present
    apply Held.of_mem member
    rw [unchanged root (Held.of_mem member present)]
    exact present
  · intro holder target object holderHeld laterHeld found member present
    have laterFound : later.get? holder = some object := by
      rw [unchanged holder holderHeld]
      exact found
    apply laterHeld.step laterFound member
    rw [unchanged target (holderHeld.step found member present)]
    exact present

theorem get?_release_of_held {id : ObjectId} (held : store.Held outside id) :
    (store.release outside).get? id = store.get? id :=
  get?_release_of_kept (supported_held store outside) held

/-! ## Clearing -/

/-- The collector knows exactly of the references from outside and from objects that are not
tracked. -/
theorem mem_held_iff {id : ObjectId} :
    id ∈ store.held outside ↔ id ∈ outside ∨ ∃ holder object, store.get? holder = some object ∧
      store.isTracked holder = false ∧ id ∈ object.references := by
  have folded : ∀ (cells : List Cell) (found : Std.HashSet ObjectId),
      id ∈ cells.foldl (fun found cell =>
        match cell.object with
        | some object => if cell.tracked then found else found.insertMany object.references
        | none => found) found ↔
      id ∈ found ∨ ∃ cell ∈ cells, cell.tracked = false ∧ id ∈ cellReferences cell := by
    intro cells
    induction cells with
    | nil =>
        intro found
        simp
    | cons cell rest inductionHypothesis =>
        intro found
        rw [List.foldl_cons, inductionHypothesis]
        simp only [List.exists_mem_cons_iff, ← or_assoc]
        apply or_congr_left
        unfold cellReferences
        cases cell.object with
        | none =>
            simp
        | some object =>
            cases cell.tracked with
            | true =>
                simp
            | false =>
                simp [Std.HashSet.mem_insertMany_list]
  unfold held
  rw [← Array.foldl_toList]
  apply (folded store.cells.toList _).trans
  apply or_congr
  · simp [Std.HashSet.mem_ofList]
  · exact exists_cellReferences_iff store id fun tracked => tracked = false

theorem mem_trackedIds {id : ObjectId} :
    id ∈ store.trackedIds ↔ (store.get? id).isSome = true ∧ store.isTracked id = true := by
  rw [trackedIds, List.mem_filter, mem_ids]

theorem mem_inUse_iff {id : ObjectId} :
    id ∈ store.inUse outside ↔
      ∃ root, (root ∈ store.trackedIds ∧ root ∈ store.held outside) ∧
        Leads store.successors root id := by
  have roots : ∀ root ∈ store.trackedIds.filter (store.held outside).contains,
      root ∈ store.ids := by
    intro root member
    exact (List.mem_filter.mp (List.mem_filter.mp member).1).1
  have closed : ∀ source ∈ store.ids, ∀ target ∈ store.successors source, target ∈ store.ids := by
    intro source _ target next
    obtain ⟨_, _, _, present⟩ := mem_successors.mp next
    exact mem_ids.mpr present
  unfold inUse
  apply (mem_reachable_iff store.ids closed store.length_ids_le roots).trans
  simp only [List.mem_filter, Std.HashSet.contains_iff_mem]

/-- A tracked object that is held can be reached from a root. -/
theorem mem_inUse_of_held {id : ObjectId} (held : store.Held outside id)
    (tracked : store.isTracked id = true) : id ∈ store.inUse outside := by
  apply mem_inUse_iff.mpr
  revert tracked
  refine held.induct ?_ ?_
  · intro root member present tracked
    have isHeld : root ∈ store.held outside := mem_held_iff.mpr (Or.inl member)
    exact ⟨root, ⟨mem_trackedIds.mpr ⟨present, tracked⟩, isHeld⟩, Leads.refl root⟩
  · intro holder target object _ reachedHolder found member present tracked
    cases holderTracked : store.isTracked holder with
    | true =>
        obtain ⟨root, isRoot, way⟩ := reachedHolder holderTracked
        exact ⟨root, isRoot, way.step (mem_successors.mpr ⟨object, found, member, present⟩)⟩
    | false =>
        have isHeld : target ∈ store.held outside :=
          mem_held_iff.mpr (Or.inr ⟨holder, object, found, holderTracked, member⟩)
        exact ⟨target, ⟨mem_trackedIds.mpr ⟨present, tracked⟩, isHeld⟩, Leads.refl target⟩

theorem not_mem_garbage_of_held {id : ObjectId} (held : store.Held outside id) :
    id ∉ store.garbage outside := by
  intro member
  obtain ⟨isTrackedId, unused⟩ := List.mem_filter.mp member
  have used := mem_inUse_of_held held (mem_trackedIds.mp isTrackedId).2
  rw [Std.HashSet.contains_iff_mem.mpr used] at unused
  cases unused

theorem get?_clear_of_ne (store : Store) {id other : ObjectId} (distinct : other ≠ id) :
    (store.clear id).get? other = store.get? other := by
  unfold clear
  split
  · exact get?_set_of_ne _ distinct
  · rfl

theorem get?_foldl_clear_of_not_mem (ids : List ObjectId) (store : Store) {other : ObjectId}
    (apart : other ∉ ids) : (ids.foldl clear store).get? other = store.get? other := by
  induction ids generalizing store with
  | nil =>
      rfl
  | cons head rest inductionHypothesis =>
      rw [List.foldl_cons,
        inductionHypothesis _ (fun member => apart (List.mem_cons_of_mem _ member))]
      exact get?_clear_of_ne store (fun same => apart (same ▸ List.mem_cons_self))

theorem inherits_clear (store : Store) (id : ObjectId) : Inherits store (store.clear id) := by
  unfold clear
  split
  · rename_i object found
    exact inherits_set found object.cleared_cleared
  · exact Inherits.refl store

theorem inherits_foldl_clear (ids : List ObjectId) (store : Store) :
    Inherits store (ids.foldl clear store) := by
  induction ids generalizing store with
  | nil =>
      exact Inherits.refl store
  | cons head rest inductionHypothesis =>
      exact (inherits_clear store head).trans (inductionHypothesis _)

theorem size_foldl_clear (ids : List ObjectId) (store : Store) :
    (ids.foldl clear store).cells.size = store.cells.size := by
  induction ids generalizing store with
  | nil =>
      rfl
  | cons head rest inductionHypothesis =>
      rw [List.foldl_cons, inductionHypothesis, clear]
      split
      · exact size_set _ _ _
      · rfl

@[simp]
theorem get?_forgetGone (store : Store) (id : ObjectId) :
    store.forgetGone.get? id = store.get? id := by
  rw [get?_eq_bind, get?_eq_bind, forgetGone]
  dsimp only
  rw [Array.getElem?_map]
  cases store.cells[id.index]? with
  | none =>
      rfl
  | some cell =>
      rfl

/-! ## The whole collection -/

/-- A collection leaves every object as it is to which a way leads from outside. -/
theorem get?_collect_of_held {id : ObjectId} (held : store.Held outside id) :
    (store.collect outside).2.get? id = store.get? id := by
  have heldAfterRelease : (store.release outside).Held outside id :=
    held.transfer fun other otherHeld => get?_release_of_held otherHeld
  have unclearedByCollection : ∀ other, (store.release outside).Held outside other →
      (((store.release outside).garbage outside).foldl clear (store.release outside)).get? other =
        (store.release outside).get? other := by
    intro other otherHeld
    exact get?_foldl_clear_of_not_mem _ _ (not_mem_garbage_of_held otherHeld)
  calc (store.collect outside).2.get? id
      = ((((store.release outside).garbage outside).foldl clear
          (store.release outside)).release outside).get? id := get?_forgetGone _ id
    _ = (((store.release outside).garbage outside).foldl clear (store.release outside)).get? id :=
        get?_release_of_held (heldAfterRelease.transfer unclearedByCollection)
    _ = (store.release outside).get? id := unclearedByCollection id heldAfterRelease
    _ = store.get? id := get?_release_of_held held

@[simp]
theorem size_collect (store : Store) (outside : List ObjectId) :
    (store.collect outside).2.cells.size = store.cells.size := by
  simp only [collect, forgetGone, Array.size_map, release, size_releaseFrom, size_foldl_clear]

theorem inherits_collect (store : Store) (outside : List ObjectId) :
    Inherits store (store.collect outside).2 := by
  have forgotten : ∀ present : Store, Inherits present present.forgetGone := by
    intro present
    refine .of_origin (by simp [forgetGone]) (fun id object found => ?_) fun _ _ id _ _ was => ?_
    · rw [get?_forgetGone] at found
      exact ⟨object, found, rfl⟩
    · rw [get?_forgetGone]
      exact was
  have clearedAndReleased := ((inherits_release store outside).trans
    (inherits_foldl_clear ((store.release outside).garbage outside) _)).trans
      (inherits_release _ outside)
  exact clearedAndReleased.trans (forgotten _)

end Store

end Missive
