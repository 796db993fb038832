import Missive.Proofs.Memory.Objects

/-!
# Releasing leaves the objects that something refers to

A store is closed when everything that is referred to, from outside or from an object, is there.
Releasing a closed store leaves a closed store in which something refers to every object, and the
objects that are left are as they were.

The release works on a list of objects that wait to be removed, together with a count of
references for each object.  Three facts carry the loop: the counts are exact, the waiting objects
are those with a count of zero, and each waits once.  Removing an object lowers the counts of what
it referred to; the objects whose count reaches zero in this way are new to the list, because
those that waited before had no reference left to lose.
-/

namespace Missive

namespace Store

variable {store : Store} {outside : List ObjectId}

/-! ## References and their counts -/

theorem referenceCount_pos_iff {id : ObjectId} :
    0 < store.referenceCount outside id ↔ id ∈ outside ∨
      ∃ holder object, store.get? holder = some object ∧ id ∈ object.references := by
  rw [← mem_innerReferences_iff, ← List.count_pos_iff, ← List.count_pos_iff, referenceCount]
  omega

/-- Removing an object takes away its references and no other. -/
theorem referenceCount_erase (outside : List ObjectId) {removed : ObjectId} {object : Object}
    (found : store.get? removed = some object) (id : ObjectId) :
    (store.erase removed).referenceCount outside id + object.references.count id =
      store.referenceCount outside id := by
  have inner := count_innerReferences_erase found id
  unfold referenceCount
  omega

/-- The counts say of every place how many references there are to its object. -/
def CountsOf (store : Store) (outside : List ObjectId) (counts : Array Nat) : Prop :=
  ∀ id : ObjectId, counts[id.index]? =
    if id.index < store.cells.size then some (store.referenceCount outside id) else none

theorem CountsOf.erase {counts : Array Nat} (exact : CountsOf store outside counts)
    {removed : ObjectId} {object : Object} (found : store.get? removed = some object) :
    CountsOf (store.erase removed) outside (countLess counts object.references).2 := by
  intro id
  have fewer := referenceCount_erase outside found id
  rw [countLess_eq_foldl, getElem?_foldl_lowerStep, exact id, size_erase]
  split
  · simp only [Option.map_some, Option.some.injEq]
    omega
  · rfl

theorem mem_lowerStep {state : List ObjectId × Array Nat} {head id : ObjectId} :
    id ∈ (lowerStep state head).1 ↔
      id ∈ state.1 ∨ (id = head ∧ state.2[head.index]? = some 1) := by
  unfold lowerStep
  cases state.2[head.index]? with
  | none =>
      simp
  | some count =>
      dsimp only
      split
      · rename_i last
        simp [last, or_comm]
      · rename_i more
        simp [more]

/-- Lowering answers the objects that had a count and lose all of it. -/
theorem mem_foldl_lowerStep (ids : List ObjectId) (state : List ObjectId × Array Nat)
    {id : ObjectId} {count : Nat} (atId : state.2[id.index]? = some count)
    (enough : ids.count id ≤ count) :
    id ∈ (ids.foldl lowerStep state).1 ↔ id ∈ state.1 ∨ (0 < count ∧ ids.count id = count) := by
  induction ids generalizing state count with
  | nil =>
      have none : ¬ (0 < count ∧ ([] : List ObjectId).count id = count) := by
        rw [List.count_nil]
        omega
      simp only [List.foldl_nil, none, or_false]
  | cons head rest inductionHypothesis =>
      have lowered : (lowerStep state head).2[id.index]? = some (count - [head].count id) := by
        rw [getElem?_lowerStep, atId]
        rfl
      rw [List.count_cons] at enough ⊢
      rw [List.foldl_cons]
      by_cases same : head = id
      · subst same
        rw [List.count_singleton_self] at lowered
        simp only [beq_self_eq_true, if_true] at enough ⊢
        rw [inductionHypothesis _ lowered (by omega), mem_lowerStep, atId]
        simp only [true_and, Option.some.injEq, or_assoc]
        apply or_congr_right
        omega
      · have different : (head == id) = false := beq_eq_false_iff_ne.mpr same
        rw [List.count_singleton, different, if_neg Bool.false_ne_true, Nat.sub_zero] at lowered
        rw [different, if_neg Bool.false_ne_true, Nat.add_zero] at enough ⊢
        rw [inductionHypothesis _ lowered enough, mem_lowerStep]
        simp [Ne.symm same]

/-- The objects that lowering has answered so far are distinct and without a count. -/
def Exhausted (state : List ObjectId × Array Nat) : Prop :=
  state.1.Nodup ∧ ∀ id ∈ state.1, state.2[id.index]? = some 0

theorem Exhausted.step {state : List ObjectId × Array Nat} (exhausted : Exhausted state)
    (head : ObjectId) : Exhausted (lowerStep state head) := by
  constructor
  · unfold lowerStep
    cases atHead : state.2[head.index]? with
    | none =>
        exact exhausted.1
    | some count =>
        dsimp only
        split
        · rename_i last
          have new : head ∉ state.1 := by
            intro member
            rw [exhausted.2 head member, last] at atHead
            cases atHead
          exact List.nodup_cons.mpr ⟨new, exhausted.1⟩
        · exact exhausted.1
  · intro id member
    rw [getElem?_lowerStep]
    rcases mem_lowerStep.mp member with old | ⟨rfl, last⟩
    · rw [exhausted.2 id old]
      simp
    · rw [last]
      simp

theorem nodup_countLess (counts : Array Nat) (ids : List ObjectId) :
    (countLess counts ids).1.Nodup := by
  have exhausted : ∀ (state : List ObjectId × Array Nat), Exhausted state →
      Exhausted (ids.foldl lowerStep state) := by
    induction ids with
    | nil =>
        intro state now
        exact now
    | cons head rest inductionHypothesis =>
        intro state now
        exact inductionHypothesis _ (now.step head)
  rw [countLess_eq_foldl]
  exact (exhausted ([], counts) ⟨List.nodup_nil, fun _ impossible =>
    (List.not_mem_nil impossible).elim⟩).1

/-! ## Identities -/

theorem nodup_ids (store : Store) : store.ids.Nodup := by
  unfold ids
  apply List.Nodup.filterMap
  · intro first second id atFirst atSecond
    dsimp only at atFirst atSecond
    split at atFirst
    · split at atSecond
      · cases atFirst
        cases atSecond
        rfl
      · cases atSecond
    · cases atFirst
  · exact List.nodup_range

theorem length_ids_erase_lt {removed : ObjectId} {object : Object}
    (found : store.get? removed = some object) :
    (store.erase removed).ids.length < store.ids.length := by
  have member : removed ∈ store.ids := mem_ids.mpr (by rw [found]; rfl)
  have contained : (store.erase removed).ids ⊆ store.ids.erase removed := by
    intro id isThere
    have present := mem_ids.mp isThere
    rw [get?_erase] at present
    split at present
    · cases present
    · rename_i different
      exact (List.mem_erase_of_ne different).mpr (mem_ids.mpr present)
  have bound := ((nodup_ids (store.erase removed)).subperm contained).length_le
  have shorter := List.length_erase_of_mem member
  have positive := List.length_pos_of_mem member
  omega

/-! ## Closed stores -/

/-- Everything that is referred to is there. -/
structure Closed (store : Store) (outside : List ObjectId) : Prop where
  outer : ∀ id ∈ outside, (store.get? id).isSome = true
  inner : ∀ holder object, store.get? holder = some object →
    ∀ id ∈ object.references, (store.get? id).isSome = true

theorem Closed.present (closed : Closed store outside) {id : ObjectId}
    (referred : 0 < store.referenceCount outside id) : (store.get? id).isSome = true := by
  rcases referenceCount_pos_iff.mp referred with member | ⟨holder, object, found, member⟩
  · exact closed.outer id member
  · exact closed.inner holder object found id member

theorem Closed.erase (closed : Closed store outside) {removed : ObjectId}
    (unreferenced : store.referenceCount outside removed = 0) :
    Closed (store.erase removed) outside := by
  have stays : ∀ id, 0 < store.referenceCount outside id →
      ((store.erase removed).get? id).isSome = true := by
    intro id referred
    have different : id ≠ removed := by
      intro same
      rw [same] at referred
      omega
    rw [get?_erase, if_neg different]
    exact closed.present referred
  constructor
  · intro id member
    exact stays id (referenceCount_pos_iff.mpr (Or.inl member))
  · intro holder object found id member
    rw [get?_erase] at found
    split at found
    · cases found
    · exact stays id (referenceCount_pos_iff.mpr (Or.inr ⟨holder, object, found, member⟩))

/-- The state of a release: which objects wait to be removed. -/
structure Releasing (store : Store) (outside : List ObjectId) (work : List ObjectId)
    (counts : Array Nat) : Prop where
  closed : Closed store outside
  exact : CountsOf store outside counts
  nodup : work.Nodup
  waiting : ∀ id, id ∈ work ↔
    (store.get? id).isSome = true ∧ store.referenceCount outside id = 0

theorem Releasing.start (closed : Closed store outside) :
    Releasing store outside
      (store.ids.filter fun id => (store.referenceCounts outside)[id.index]? = some 0)
      (store.referenceCounts outside) := by
  refine ⟨closed, getElem?_referenceCounts store outside, (nodup_ids store).filter _, ?_⟩
  intro id
  rw [List.mem_filter, mem_ids, decide_eq_true_iff]
  apply and_congr_right
  intro present
  obtain ⟨object, found⟩ := Option.isSome_iff_exists.mp present
  rw [getElem?_referenceCounts, if_pos (index_lt_of_get? found), Option.some.injEq]

/-- Erasing an object takes the last reference from what its lowered counts answer.  What it
referred to was there, so its place has a count. -/
theorem Releasing.mem_countLess_iff {counts : Array Nat} {head : ObjectId} {rest : List ObjectId}
    (releasing : Releasing store outside (head :: rest) counts) {object : Object}
    (found : store.get? head = some object) (id : ObjectId) :
    id ∈ (countLess counts object.references).1 ↔
      0 < store.referenceCount outside id ∧ (store.erase head).referenceCount outside id = 0 := by
  have fewer := referenceCount_erase outside found id
  by_cases inside : id.index < store.cells.size
  · have atId := releasing.exact id
    rw [if_pos inside] at atId
    rw [countLess_eq_foldl, mem_foldl_lowerStep _ _ atId (by omega)]
    simp only [List.not_mem_nil, false_or]
    omega
  · constructor
    · intro member
      rw [countLess_eq_foldl] at member
      rcases unreferenced_foldl_lowerStep _ _ member with impossible | zero
      · exact (List.not_mem_nil impossible).elim
      · rw [getElem?_foldl_lowerStep, releasing.exact id, if_neg inside] at zero
        cases zero
    · rintro ⟨referred, -⟩
      obtain ⟨other, otherFound⟩ :=
        Option.isSome_iff_exists.mp (releasing.closed.present referred)
      exact (inside (index_lt_of_get? otherFound)).elim

theorem Releasing.erase {counts : Array Nat} {head : ObjectId} {rest : List ObjectId}
    (releasing : Releasing store outside (head :: rest) counts) {object : Object}
    (found : store.get? head = some object) :
    Releasing (store.erase head) outside ((countLess counts object.references).1 ++ rest)
      (countLess counts object.references).2 := by
  have unreferenced := ((releasing.waiting head).mp List.mem_cons_self).2
  have headNew : head ∉ rest := (List.nodup_cons.mp releasing.nodup).1
  refine ⟨releasing.closed.erase unreferenced, releasing.exact.erase found, ?_, ?_⟩
  · refine List.Nodup.append (nodup_countLess counts _) (List.nodup_cons.mp releasing.nodup).2 ?_
    intro id new old
    have referred := ((releasing.mem_countLess_iff found id).mp new).1
    have waited := ((releasing.waiting id).mp (List.mem_cons_of_mem head old)).2
    omega
  · intro id
    have fewer := referenceCount_erase outside found id
    rw [List.mem_append, releasing.mem_countLess_iff found id, get?_erase]
    by_cases same : id = head
    · subst same
      simp only [if_true, Option.isSome_none, Bool.false_eq_true, false_and, iff_false, not_or]
      exact ⟨fun lost => by omega, headNew⟩
    · have waited := releasing.waiting id
      rw [List.mem_cons, or_iff_right same] at waited
      rw [waited, if_neg same]
      constructor
      · rintro (⟨referred, zero⟩ | ⟨present, zero⟩)
        · exact ⟨releasing.closed.present referred, zero⟩
        · exact ⟨present, by omega⟩
      · rintro ⟨present, zero⟩
        by_cases referred : 0 < store.referenceCount outside id
        · exact Or.inl ⟨referred, zero⟩
        · exact Or.inr ⟨present, by omega⟩

/-- A closed store in which something refers to every object. -/
structure Settled (store : Store) (outside : List ObjectId) : Prop where
  closed : Closed store outside
  referred : ∀ id, (store.get? id).isSome = true → 0 < store.referenceCount outside id

theorem settled_releaseFrom (fuel : Nat) (work : List ObjectId) (counts : Array Nat)
    (store : Store) (releasing : Releasing store outside work counts)
    (enough : store.ids.length ≤ fuel) : Settled (releaseFrom fuel work counts store) outside := by
  fun_induction releaseFrom fuel work counts store with
  | case1 counts store remaining head rest object found removed lowered lowering
      inductionHypothesis =>
      have next := releasing.erase found
      rw [lowering] at next
      have fewer := length_ids_erase_lt found
      exact inductionHypothesis next (by omega)
  | case2 counts store remaining head rest gone inductionHypothesis =>
      have present := ((releasing.waiting head).mp List.mem_cons_self).1
      rw [gone] at present
      cases present
  | case3 fuel work counts store done =>
      refine ⟨releasing.closed, fun id present => ?_⟩
      have isThere : 0 < store.ids.length := List.length_pos_of_mem (mem_ids.mpr present)
      have nothingWaits : work = [] := by
        cases work with
        | nil =>
            rfl
        | cons head rest =>
            exact (done (fuel - 1) head rest (by omega) rfl).elim
      apply Nat.pos_of_ne_zero
      intro unreferenced
      have waits := (releasing.waiting id).mpr ⟨present, unreferenced⟩
      rw [nothingWaits] at waits
      exact List.not_mem_nil waits

theorem settled_release (closed : Closed store outside) :
    Settled (store.release outside) outside :=
  settled_releaseFrom _ _ _ _ (Releasing.start closed) store.length_ids_le

/-- A release changes no object that it leaves. -/
theorem get?_of_get?_releaseFrom (fuel : Nat) (work : List ObjectId) (counts : Array Nat)
    (store : Store) {id : ObjectId} {object : Object}
    (found : (releaseFrom fuel work counts store).get? id = some object) :
    store.get? id = some object := by
  fun_induction releaseFrom fuel work counts store with
  | case1 counts store remaining head rest removedObject headFound removed lowered lowering
      inductionHypothesis =>
      have before := inductionHypothesis found
      rw [get?_erase] at before
      split at before
      · cases before
      · exact before
  | case2 counts store remaining head rest gone inductionHypothesis =>
      exact inductionHypothesis found
  | case3 =>
      exact found

theorem get?_of_get?_release {id : ObjectId} {object : Object}
    (found : (store.release outside).get? id = some object) : store.get? id = some object :=
  get?_of_get?_releaseFrom _ _ _ _ found

/-- Where something refers to every object nothing is released. -/
theorem Settled.release_eq (settled : Settled store outside) : store.release outside = store := by
  have nothingWaits : (store.ids.filter fun id =>
      (store.referenceCounts outside)[id.index]? = some 0) = [] := by
    apply List.filter_eq_nil_iff.mpr
    intro id isThere
    have referred := settled.referred id (mem_ids.mp isThere)
    rw [getElem?_referenceCounts, decide_eq_true_iff]
    split
    · rw [Option.some.injEq]
      omega
    · intro impossible
      cases impossible
  unfold release
  dsimp only
  rw [nothingWaits]
  cases store.cells.size <;> rfl

end Store

end Missive
