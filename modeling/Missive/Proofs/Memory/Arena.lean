import Missive.Memory.Arena

/-!
# What the operations of the arena do

One equation for each operation, read through `Arena.get?`.  They hold in every arena whose free
list holds only empty places, each once; every operation keeps this.

A handle counts as issued once a context has been given out under it, whether that context is
still there or not.  A new context never gets an issued handle, so what is known about the handle
of an old context is never mixed up with a new one.
-/

namespace Missive

namespace Arena

/-- The free list holds only empty places, each once. -/
structure WellFormed (arena : Arena) : Prop where
  free_empty : ∀ index ∈ arena.free,
    ∃ place, arena.places[index]? = some place ∧ place.context = none
  free_nodup : arena.free.Nodup

/-- A context has been given out under the handle. -/
def Issued (arena : Arena) (id : ContextId) : Prop :=
  ∃ place, arena.places[id.index]? = some place ∧ id.generation ≤ place.generation ∧
    (id.generation = place.generation → place.context.isSome = true)

theorem wellFormed_empty : WellFormed empty :=
  ⟨fun _ impossible => (List.not_mem_nil impossible).elim, List.nodup_nil⟩

/-- The handle of a context and its place. -/
theorem get?_eq_some_iff {arena : Arena} {id : ContextId} {context : Context} :
    arena.get? id = some context ↔
      arena.places[id.index]? = some ⟨id.generation, some context⟩ := by
  unfold Arena.get?
  constructor
  · intro found
    split at found
    · rename_i place atPlace
      split at found
      · rename_i current
        obtain ⟨generation, content⟩ := place
        cases current
        cases found
        exact atPlace
      · cases found
    · cases found
  · intro atPlace
    rw [atPlace]
    simp

theorem get?_eq_none_of_empty {arena : Arena} {id : ContextId} {place : Place}
    (atPlace : arena.places[id.index]? = some place) (vacant : place.context = none) :
    arena.get? id = none := by
  cases found : arena.get? id with
  | none =>
      rfl
  | some context =>
      rw [get?_eq_some_iff, atPlace] at found
      cases found
      cases vacant

/-- A live handle has been issued. -/
theorem issued_of_get? {arena : Arena} {id : ContextId} {context : Context}
    (found : arena.get? id = some context) : Issued arena id :=
  ⟨_, get?_eq_some_iff.mp found, Nat.le_refl _, fun _ => rfl⟩

/-- Two live handles of one place are the same. -/
theorem generation_unique {arena : Arena} {id other : ContextId} {context found : Context}
    (here : arena.get? id = some context) (there : arena.get? other = some found)
    (samePlace : other.index = id.index) : other = id := by
  rw [get?_eq_some_iff] at here there
  rw [samePlace, here] at there
  obtain ⟨index, generation⟩ := id
  obtain ⟨otherIndex, otherGeneration⟩ := other
  cases samePlace
  cases there
  rfl

/-! ## New contexts -/

/-- Where a new context is put: the place freed last, or a new place at the end. -/
theorem alloc_cases {arena : Arena} (wellFormed : WellFormed arena) (context : Context) :
    (∃ index rest place, arena.free = index :: rest ∧ arena.places[index]? = some place ∧
      place.context = none ∧
      arena.alloc context = (⟨index, place.generation⟩,
        { places := arena.places.modify index fun place => { place with context := some context }
          free := rest
          live := arena.live + 1 })) ∨
    (arena.free = [] ∧
      arena.alloc context = (⟨arena.places.size, 0⟩,
        { places := arena.places.push ⟨0, some context⟩
          free := []
          live := arena.live + 1 })) := by
  cases freeList : arena.free with
  | nil =>
      refine Or.inr ⟨rfl, ?_⟩
      simp [Arena.alloc, freeList]
  | cons index rest =>
      obtain ⟨place, atPlace, vacant⟩ :=
        wellFormed.free_empty index (by rw [freeList]; exact List.mem_cons_self)
      refine Or.inl ⟨index, rest, place, rfl, atPlace, vacant, ?_⟩
      simp [Arena.alloc, freeList, atPlace]

/-- A new context gets a handle under which there was none, and changes nothing else. -/
theorem get?_alloc {arena : Arena} (wellFormed : WellFormed arena) (context : Context)
    (id : ContextId) :
    (arena.alloc context).2.get? id =
      if id = (arena.alloc context).1 then some context else arena.get? id := by
  rcases alloc_cases wellFormed context with
    ⟨index, rest, place, _, atPlace, vacant, allocated⟩ | ⟨_, allocated⟩
  · rw [allocated]
    dsimp only
    by_cases samePlace : id.index = index
    · subst samePlace
      by_cases same : id = ⟨id.index, place.generation⟩
      · rw [if_pos same, get?_eq_some_iff]
        have generation : place.generation = id.generation :=
          (congrArg ContextId.generation same).symm
        simp [Array.getElem?_modify, atPlace, generation]
      · rw [if_neg same, get?_eq_none_of_empty atPlace vacant]
        have different : place.generation ≠ id.generation := by
          intro generation
          apply same
          rw [generation]
        simp [Arena.get?, Array.getElem?_modify, atPlace, different]
    · have different : id ≠ ⟨index, place.generation⟩ :=
        fun same => samePlace (congrArg ContextId.index same)
      rw [if_neg different]
      simp [Arena.get?, Array.getElem?_modify, Ne.symm samePlace]
  · rw [allocated]
    dsimp only
    by_cases atEnd : id.index = arena.places.size
    · by_cases same : id = ⟨arena.places.size, 0⟩
      · rw [if_pos same, same]
        simp [Arena.get?]
      · have different : id.generation ≠ 0 := by
          intro zero
          apply same
          rw [← atEnd, ← zero]
        rw [if_neg same]
        simp [Arena.get?, atEnd, Ne.symm different]
    · have different : id ≠ ⟨arena.places.size, 0⟩ :=
        fun same => atEnd (congrArg ContextId.index same)
      rw [if_neg different]
      simp [Arena.get?, Array.getElem?_push, atEnd]

theorem not_issued_alloc {arena : Arena} (wellFormed : WellFormed arena) (context : Context) :
    ¬ Issued arena (arena.alloc context).1 := by
  rintro ⟨found, atFound, _, current⟩
  rcases alloc_cases wellFormed context with
    ⟨index, rest, place, _, atPlace, vacant, allocated⟩ | ⟨_, allocated⟩
  · rw [allocated] at atFound current
    dsimp only at atFound current
    rw [atPlace] at atFound
    cases atFound
    have occupied := current rfl
    rw [vacant] at occupied
    cases occupied
  · rw [allocated] at atFound
    dsimp only at atFound
    rw [Array.getElem?_eq_none (Nat.le_refl _)] at atFound
    cases atFound

/-- The handle of a new context was not live before. -/
theorem get?_alloc_fresh {arena : Arena} (wellFormed : WellFormed arena) (context : Context) :
    arena.get? (arena.alloc context).1 = none := by
  cases found : arena.get? (arena.alloc context).1 with
  | none =>
      rfl
  | some old =>
      exact (not_issued_alloc wellFormed context (issued_of_get? found)).elim

theorem get?_alloc_self {arena : Arena} (wellFormed : WellFormed arena) (context : Context) :
    (arena.alloc context).2.get? (arena.alloc context).1 = some context := by
  rw [get?_alloc wellFormed, if_pos rfl]

theorem issued_alloc {arena : Arena} (wellFormed : WellFormed arena) (context : Context) :
    (arena.alloc context).2.Issued (arena.alloc context).1 :=
  issued_of_get? (get?_alloc_self wellFormed context)

theorem WellFormed.alloc {arena : Arena} (wellFormed : WellFormed arena) (context : Context) :
    WellFormed (arena.alloc context).2 := by
  rcases alloc_cases wellFormed context with
    ⟨index, rest, place, freeList, atPlace, _, allocated⟩ | ⟨_, allocated⟩
  · have nodup := wellFormed.free_nodup
    rw [freeList, List.nodup_cons] at nodup
    rw [allocated]
    refine ⟨fun other member => ?_, nodup.2⟩
    have different : index ≠ other := fun same => nodup.1 (same ▸ member)
    obtain ⟨found, atFound, vacant⟩ :=
      wellFormed.free_empty other (by rw [freeList]; exact List.mem_cons_of_mem _ member)
    refine ⟨found, ?_, vacant⟩
    simp [Array.getElem?_modify, different, atFound]
  · rw [allocated]
    exact ⟨fun _ impossible => (List.not_mem_nil impossible).elim, List.nodup_nil⟩

theorem Issued.alloc {arena : Arena} (wellFormed : WellFormed arena) {id : ContextId}
    (issued : Issued arena id) (context : Context) : Issued (arena.alloc context).2 id := by
  obtain ⟨found, atFound, reached, current⟩ := issued
  rcases alloc_cases wellFormed context with
    ⟨index, rest, place, _, atPlace, _, allocated⟩ | ⟨_, allocated⟩
  · rw [allocated]
    by_cases here : index = id.index
    · refine ⟨{ found with context := some context }, ?_, reached, fun _ => rfl⟩
      simp [Array.getElem?_modify, here, atFound]
    · refine ⟨found, ?_, reached, current⟩
      simp [Array.getElem?_modify, here, atFound]
  · have inside : id.index < arena.places.size := by
      apply Nat.lt_of_not_le
      intro outside
      rw [Array.getElem?_eq_none outside] at atFound
      cases atFound
    rw [allocated]
    refine ⟨found, ?_, reached, current⟩
    simp [Array.getElem?_push, Nat.ne_of_lt inside, atFound]

/-! ## Stores of local variables -/

theorem get?_put {arena : Arena} {id : ContextId} {context : Context}
    (live : arena.get? id = some context) (slot : Nat) (value : Value) (other : ContextId) :
    (arena.put id slot value).get? other =
      if other = id then some (Context.store context slot value) else arena.get? other := by
  have atPlace := get?_eq_some_iff.mp live
  by_cases samePlace : other.index = id.index
  · by_cases same : other = id
    · rw [if_pos same, same, get?_eq_some_iff]
      simp [Arena.put, Array.getElem?_modify, atPlace]
    · have different : id.generation ≠ other.generation := by
        intro generation
        apply same
        obtain ⟨index, _⟩ := id
        obtain ⟨otherIndex, _⟩ := other
        cases samePlace
        cases generation
        rfl
      rw [if_neg same]
      simp [Arena.get?, Arena.put, Array.getElem?_modify, samePlace, atPlace, different]
  · have different : other ≠ id := fun same => samePlace (congrArg ContextId.index same)
    rw [if_neg different]
    simp [Arena.get?, Arena.put, Array.getElem?_modify, Ne.symm samePlace]

theorem WellFormed.put {arena : Arena} (wellFormed : WellFormed arena) (id : ContextId)
    (slot : Nat) (value : Value) : WellFormed (arena.put id slot value) := by
  refine ⟨fun index member => ?_, wellFormed.free_nodup⟩
  obtain ⟨place, atPlace, vacant⟩ := wellFormed.free_empty index member
  by_cases here : id.index = index
  · refine ⟨{ place with context := place.context.map (Context.store · slot value) }, ?_, ?_⟩
    · simp [Arena.put, Array.getElem?_modify, here, atPlace]
    · simp [vacant]
  · refine ⟨place, ?_, vacant⟩
    simp [Arena.put, Array.getElem?_modify, here, atPlace]

theorem Issued.put {arena : Arena} {issuedId : ContextId} (issued : Issued arena issuedId)
    (id : ContextId) (slot : Nat) (value : Value) :
    Issued (arena.put id slot value) issuedId := by
  obtain ⟨place, atPlace, reached, current⟩ := issued
  by_cases here : id.index = issuedId.index
  · refine ⟨{ place with context := place.context.map (Context.store · slot value) }, ?_,
      reached, fun same => ?_⟩
    · simp [Arena.put, Array.getElem?_modify, here, atPlace]
    · simpa using current same
  · refine ⟨place, ?_, reached, current⟩
    simp [Arena.put, Array.getElem?_modify, here, atPlace]

/-! ## Freed contexts -/

/-- Frees the context at one place. -/
def freeAt (arena : Arena) (index : Nat) : Arena :=
  { places := arena.places.modify index fun place => ⟨place.generation + 1, none⟩
    free := index :: arena.free
    live := arena.live - 1 }

theorem freeAll_cons (arena : Arena) (index : Nat) (rest : List Nat) :
    arena.freeAll (index :: rest) = (arena.freeAt index).freeAll rest := rfl

theorem get?_freeAt (arena : Arena) (index : Nat) (id : ContextId) :
    (arena.freeAt index).get? id = if id.index = index then none else arena.get? id := by
  by_cases here : id.index = index
  · rw [if_pos here]
    simp only [Arena.get?, freeAt, Array.getElem?_modify, here, if_true]
    cases arena.places[index]? with
    | none => rfl
    | some place => simp
  · rw [if_neg here]
    simp [Arena.get?, freeAt, Array.getElem?_modify, Ne.symm here]

theorem get?_freeAll (arena : Arena) (indices : List Nat) (id : ContextId) :
    (arena.freeAll indices).get? id = if id.index ∈ indices then none else arena.get? id := by
  induction indices generalizing arena with
  | nil =>
      rw [if_neg List.not_mem_nil]
      rfl
  | cons index rest inductionHypothesis =>
      rw [freeAll_cons, inductionHypothesis, get?_freeAt]
      by_cases here : id.index = index
      · simp [here]
      · simp [here]

theorem WellFormed.freeAt {arena : Arena} (wellFormed : WellFormed arena) {index : Nat}
    {place : Place} (atPlace : arena.places[index]? = some place)
    (occupied : place.context ≠ none) : WellFormed (arena.freeAt index) := by
  constructor
  · intro other member
    by_cases here : index = other
    · subst here
      refine ⟨⟨place.generation + 1, none⟩, ?_, rfl⟩
      simp [Arena.freeAt, Array.getElem?_modify, atPlace]
    · have old : other ∈ arena.free :=
        (List.mem_cons.mp member).resolve_left (Ne.symm here)
      obtain ⟨found, atFound, vacant⟩ := wellFormed.free_empty other old
      refine ⟨found, ?_, vacant⟩
      simp [Arena.freeAt, Array.getElem?_modify, here, atFound]
  · refine List.nodup_cons.mpr ⟨fun member => ?_, wellFormed.free_nodup⟩
    obtain ⟨found, atFound, vacant⟩ := wellFormed.free_empty index member
    rw [atPlace] at atFound
    cases atFound
    exact occupied vacant

/-- Different occupied places may be freed one after the other. -/
theorem WellFormed.freeAll {arena : Arena} (wellFormed : WellFormed arena) {indices : List Nat}
    (distinct : indices.Nodup)
    (occupied : ∀ index ∈ indices,
      ∃ place, arena.places[index]? = some place ∧ place.context ≠ none) :
    WellFormed (arena.freeAll indices) := by
  induction indices generalizing arena with
  | nil =>
      exact wellFormed
  | cons index rest inductionHypothesis =>
      rw [List.nodup_cons] at distinct
      obtain ⟨place, atPlace, here⟩ := occupied index List.mem_cons_self
      rw [freeAll_cons]
      apply inductionHypothesis (wellFormed.freeAt atPlace here) distinct.2
      intro other member
      have different : index ≠ other := fun same => distinct.1 (same ▸ member)
      obtain ⟨found, atFound, there⟩ := occupied other (List.mem_cons_of_mem index member)
      refine ⟨found, ?_, there⟩
      simp [Arena.freeAt, Array.getElem?_modify, different, atFound]

theorem Issued.freeAt {arena : Arena} {id : ContextId} (issued : Issued arena id)
    (index : Nat) : Issued (arena.freeAt index) id := by
  obtain ⟨place, atPlace, reached, current⟩ := issued
  by_cases here : index = id.index
  · refine ⟨⟨place.generation + 1, none⟩, ?_, Nat.le_succ_of_le reached, fun same => ?_⟩
    · simp [Arena.freeAt, Array.getElem?_modify, here, atPlace]
    · dsimp only at same
      omega
  · refine ⟨place, ?_, reached, current⟩
    simp [Arena.freeAt, Array.getElem?_modify, here, atPlace]

theorem Issued.freeAll {arena : Arena} {id : ContextId} (issued : Issued arena id)
    (indices : List Nat) : Issued (arena.freeAll indices) id := by
  induction indices generalizing arena with
  | nil =>
      exact issued
  | cons index rest inductionHypothesis =>
      rw [freeAll_cons]
      exact inductionHypothesis (issued.freeAt index)

/-! ## Handles -/

theorem mem_handles {arena : Arena} {id : ContextId} :
    id ∈ arena.handles ↔ ∃ context, arena.get? id = some context := by
  unfold Arena.handles
  rw [List.mem_filterMap]
  constructor
  · rintro ⟨⟨place, index⟩, member, found⟩
    dsimp only at found
    split at found
    · rename_i occupied
      cases found
      obtain ⟨context, content⟩ := Option.isSome_iff_exists.mp occupied
      have atPlace := List.mem_zipIdx_iff_getElem?.mp member
      refine ⟨context, get?_eq_some_iff.mpr ?_⟩
      rw [Array.getElem?_toList] at atPlace
      obtain ⟨generation, _⟩ := place
      cases content
      exact atPlace
    · cases found
  · rintro ⟨context, found⟩
    have atPlace := get?_eq_some_iff.mp found
    refine ⟨(⟨id.generation, some context⟩, id.index), ?_, ?_⟩
    · rw [List.mem_zipIdx_iff_getElem?, Array.getElem?_toList]
      exact atPlace
    · simp

theorem length_handles_le (arena : Arena) : arena.handles.length ≤ arena.places.size := by
  unfold Arena.handles
  calc (List.filterMap _ arena.places.toList.zipIdx).length
      ≤ arena.places.toList.zipIdx.length := List.length_filterMap_le _ _
    _ = arena.places.size := by rw [List.length_zipIdx, Array.length_toList]

end Arena

end Missive
