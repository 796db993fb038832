import Mathlib.Data.List.Perm.Subperm
import Missive.Proofs.Memory.Contexts

/-!
# What a collection of contexts keeps and what it frees

An arena changes by new contexts, by stores of local variables and by collections.  However it came
about, its free list holds exactly the empty places and it knows how many contexts it has.

A collection is exact.  The relation `InReach` spells out every way on which something can be
reached, one constructor for each kind of link; a context survives exactly if it is in reach.
-/

namespace Missive

namespace Arena

/-! ## Places in balance -/

/-- The free list holds exactly the empty places, each once, and all other places are counted. -/
structure Balanced (arena : Arena) : Prop extends WellFormed arena where
  empty_free : ∀ index place, arena.places[index]? = some place → place.context = none →
    index ∈ arena.free
  count : arena.live + arena.free.length = arena.places.size

variable {arena : Arena}

theorem balanced_empty : Balanced empty :=
  ⟨wellFormed_empty, fun _ _ impossible _ => by simp [Arena.empty] at impossible, rfl⟩

theorem Balanced.alloc (balanced : Balanced arena) (context : Context) :
    Balanced (arena.alloc context).2 := by
  have wellFormed := balanced.toWellFormed.alloc context
  have count := balanced.count
  rcases alloc_cases balanced.toWellFormed context with
    ⟨index, rest, place, freeList, atPlace, _, allocated⟩ | ⟨freeList, allocated⟩
  · rw [freeList, List.length_cons] at count
    rw [allocated] at wellFormed ⊢
    refine ⟨wellFormed, fun other found atFound vacant => ?_, ?_⟩
    · by_cases here : index = other
      · simp [Array.getElem?_modify, here, here ▸ atPlace] at atFound
        simp [← atFound] at vacant
      · simp [Array.getElem?_modify, here] at atFound
        have old := balanced.empty_free other found atFound vacant
        rw [freeList] at old
        exact (List.mem_cons.mp old).resolve_left (Ne.symm here)
    · simp only [Array.size_modify]
      omega
  · rw [freeList, List.length_nil] at count
    rw [allocated] at wellFormed ⊢
    refine ⟨wellFormed, fun other found atFound vacant => ?_, ?_⟩
    · by_cases atEnd : other = arena.places.size
      · simp [atEnd] at atFound
        simp [← atFound] at vacant
      · simp [Array.getElem?_push, atEnd] at atFound
        have old := balanced.empty_free other found atFound vacant
        simp [freeList] at old
    · simp only [Array.size_push, List.length_nil]
      omega

theorem Balanced.put (balanced : Balanced arena) (id : ContextId) (slot : Nat) (value : Value) :
    Balanced (arena.put id slot value) := by
  refine ⟨balanced.toWellFormed.put id slot value, fun index place atPlace vacant => ?_, ?_⟩
  · by_cases here : id.index = index
    · simp only [Arena.put, Array.getElem?_modify, here, if_true] at atPlace
      obtain ⟨before, atBefore, changed⟩ := Option.map_eq_some_iff.mp atPlace
      rw [← changed] at vacant
      exact balanced.empty_free index before atBefore (Option.map_eq_none_iff.mp vacant)
    · simp only [Arena.put, Array.getElem?_modify, here, if_false] at atPlace
      exact balanced.empty_free index place atPlace vacant
  · simpa [Arena.put] using balanced.count

/-- There is one context at least where a place is occupied. -/
theorem Balanced.live_pos (balanced : Balanced arena) {index : Nat} {place : Place}
    (atPlace : arena.places[index]? = some place) (occupied : place.context ≠ none) :
    0 < arena.live := by
  have notFree : index ∉ arena.free := by
    intro member
    obtain ⟨found, atFound, vacant⟩ := balanced.free_empty index member
    rw [atPlace] at atFound
    cases atFound
    exact occupied vacant
  have distinct : (index :: arena.free).Nodup :=
    List.nodup_cons.mpr ⟨notFree, balanced.free_nodup⟩
  have inside : index :: arena.free ⊆ List.range arena.places.size := by
    intro other member
    rw [List.mem_range]
    rcases List.mem_cons.mp member with rfl | isFree
    · exact (Array.getElem?_eq_some_iff.mp atPlace).1
    · obtain ⟨found, atFound, _⟩ := balanced.free_empty other isFree
      exact (Array.getElem?_eq_some_iff.mp atFound).1
  have fewer := (distinct.subperm inside).length_le
  have count := balanced.count
  rw [List.length_cons, List.length_range] at fewer
  omega

theorem Balanced.freeAt (balanced : Balanced arena) {index : Nat} {place : Place}
    (atPlace : arena.places[index]? = some place) (occupied : place.context ≠ none) :
    Balanced (arena.freeAt index) := by
  refine ⟨balanced.toWellFormed.freeAt atPlace occupied, fun other found atFound vacant => ?_, ?_⟩
  · by_cases here : index = other
    · exact here ▸ List.mem_cons_self
    · simp only [Arena.freeAt, Array.getElem?_modify, here, if_false] at atFound
      exact List.mem_cons_of_mem _ (balanced.empty_free other found atFound vacant)
  · have positive := balanced.live_pos atPlace occupied
    have count := balanced.count
    simp only [Arena.freeAt, Array.size_modify, List.length_cons]
    omega

/-- Different occupied places are freed one after the other, and each is counted. -/
theorem Balanced.freeAll (balanced : Balanced arena) {indices : List Nat}
    (distinct : indices.Nodup)
    (occupied : ∀ index ∈ indices,
      ∃ place, arena.places[index]? = some place ∧ place.context ≠ none) :
    Balanced (arena.freeAll indices) ∧
      (arena.freeAll indices).live + indices.length = arena.live := by
  induction indices generalizing arena with
  | nil =>
      exact ⟨balanced, rfl⟩
  | cons index rest inductionHypothesis =>
      rw [List.nodup_cons] at distinct
      obtain ⟨place, atPlace, here⟩ := occupied index List.mem_cons_self
      have positive := balanced.live_pos atPlace here
      have others : ∀ other ∈ rest,
          ∃ place, (arena.freeAt index).places[other]? = some place ∧ place.context ≠ none := by
        intro other member
        have different : index ≠ other := fun same => distinct.1 (same ▸ member)
        obtain ⟨found, atFound, there⟩ := occupied other (List.mem_cons_of_mem index member)
        refine ⟨found, ?_, there⟩
        simp [Arena.freeAt, Array.getElem?_modify, different, atFound]
      obtain ⟨balancedAfter, counted⟩ :=
        inductionHypothesis (balanced.freeAt atPlace here) distinct.2 others
      rw [freeAll_cons]
      refine ⟨balancedAfter, ?_⟩
      have one : (arena.freeAt index).live = arena.live - 1 := rfl
      rw [List.length_cons]
      omega

/-- The places of the contexts together with the free ones are all places. -/
theorem Balanced.live_eq (balanced : Balanced arena) : arena.live = arena.handles.length := by
  have distinct : (arena.handles.map ContextId.index ++ arena.free).Nodup := by
    rw [List.nodup_append]
    refine ⟨nodup_handles_index arena, balanced.free_nodup, ?_⟩
    rintro index inUse other isFree rfl
    obtain ⟨id, isHandle, rfl⟩ := List.mem_map.mp inUse
    obtain ⟨context, found⟩ := mem_handles.mp isHandle
    obtain ⟨place, atPlace, vacant⟩ := balanced.free_empty _ isFree
    rw [get?_eq_none_of_empty atPlace vacant] at found
    cases found
  have everyPlace : ∀ index, index ∈ arena.handles.map ContextId.index ++ arena.free ↔
      index ∈ List.range arena.places.size := by
    intro index
    rw [List.mem_append, List.mem_range]
    constructor
    · rintro (inUse | isFree)
      · obtain ⟨id, isHandle, rfl⟩ := List.mem_map.mp inUse
        obtain ⟨context, found⟩ := mem_handles.mp isHandle
        exact (Array.getElem?_eq_some_iff.mp (get?_eq_some_iff.mp found)).1
      · obtain ⟨place, atPlace, _⟩ := balanced.free_empty index isFree
        exact (Array.getElem?_eq_some_iff.mp atPlace).1
    · intro inside
      have atPlace := Array.getElem?_eq_getElem inside
      cases content : arena.places[index].context with
      | none =>
          exact Or.inr (balanced.empty_free index _ atPlace content)
      | some context =>
          refine Or.inl (List.mem_map.mpr ⟨⟨index, arena.places[index].generation⟩, ?_, rfl⟩)
          refine mem_handles.mpr ⟨context, get?_eq_some_iff.mpr ?_⟩
          rw [atPlace, ← content]
  have permuted := (List.perm_ext_iff_of_nodup distinct List.nodup_range).mpr everyPlace
  have total := permuted.length_eq
  have count := balanced.count
  rw [List.length_append, List.length_map, List.length_range] at total
  omega

theorem Balanced.collect (balanced : Balanced arena) (store : Store) (roots : List ContextId)
    (values : List Value) :
    Balanced (arena.collect store roots values).2 ∧
      (arena.collect store roots values).2.live + (arena.collect store roots values).1 =
        arena.live := by
  have distinct :=
    (List.filter_sublist (p := fun id =>
      !(arena.inUse store roots values).contains (.context id))).map ContextId.index |>.nodup
      (nodup_handles_index arena)
  have freed := balanced.freeAll distinct fun index member => by
    obtain ⟨id, unused, rfl⟩ := List.mem_map.mp member
    obtain ⟨⟨context, found⟩, _⟩ := mem_unused.mp unused
    exact ⟨_, get?_eq_some_iff.mp found, Option.some_ne_none context⟩
  rw [List.length_map] at freed
  exact freed

/-! ## Arenas that came about -/

/-- What is asked of an arena. -/
inductive Request where
  /-- A new context, whatever its outer handle. -/
  | alloc (context : Context)
  /-- A store through any handle; a stale one changes nothing. -/
  | store (id : ContextId) (slot : Nat) (value : Value)
  | collect (objects : Store) (roots : List ContextId) (values : List Value)

/-- The arena after a request. -/
def serve (arena : Arena) : Request → Arena
  | .alloc context => (arena.alloc context).2
  | .store id slot value => (arena.store? id slot value).getD arena
  | .collect objects roots values => (arena.collect objects roots values).2

/-- The arena after requests. -/
def served (arena : Arena) (requests : List Request) : Arena := requests.foldl serve arena

theorem Balanced.serve (balanced : Balanced arena) (request : Request) :
    Balanced (arena.serve request) := by
  cases request with
  | alloc context =>
      exact balanced.alloc context
  | store id slot value =>
      unfold Arena.serve Arena.store?
      by_cases live : arena.isLive id = true
      · simpa [live] using balanced.put id slot value
      · simpa [live] using balanced
  | collect objects roots values =>
      exact (balanced.collect objects roots values).1

theorem Balanced.served (balanced : Balanced arena) (requests : List Request) :
    Balanced (arena.served requests) := by
  induction requests generalizing arena with
  | nil =>
      exact balanced
  | cons request rest inductionHypothesis =>
      exact inductionHypothesis (balanced.serve request)

/-! ## Ways to a context -/

/-- The context or the object can be reached from the handles and the values.  A stale handle can be
reached as well, but no way leads on from it. -/
inductive InReach (arena : Arena) (store : Store) (roots : List ContextId) (values : List Value) :
    Node → Prop
  | root {id : ContextId} : id ∈ roots → InReach arena store roots values (.context id)
  | value {id : ObjectId} : .ref id ∈ values → InReach arena store roots values (.object id)
  | outer {id outer : ContextId} {context : Context} :
      InReach arena store roots values (.context id) → arena.get? id = some context →
      context.outer = some outer → InReach arena store roots values (.context outer)
  | localSlot {id : ContextId} {context : Context} {target : ObjectId} :
      InReach arena store roots values (.context id) → arena.get? id = some context →
      .ref target ∈ context.locals → InReach arena store roots values (.object target)
  | blockContext {id : ObjectId} {closure : Closure} :
      InReach arena store roots values (.object id) → store.get? id = some (.block closure) →
      InReach arena store roots values (.context closure.outer)
  | blockReceiver {id target : ObjectId} {closure : Closure} :
      InReach arena store roots values (.object id) → store.get? id = some (.block closure) →
      closure.receiver = .ref target → InReach arena store roots values (.object target)
  | blockClass {id target : ObjectId} {closure : Closure} :
      InReach arena store roots values (.object id) → store.get? id = some (.block closure) →
      closure.owner = some target → InReach arena store roots values (.object target)
  | element {id target : ObjectId} {items : List Value} :
      InReach arena store roots values (.object id) → store.get? id = some (.array items) →
      .ref target ∈ items → InReach arena store roots values (.object target)
  | key {id target : ObjectId} {entries : List (Value × Value)} {value : Value} :
      InReach arena store roots values (.object id) → store.get? id = some (.dictionary entries) →
      (.ref target, value) ∈ entries → InReach arena store roots values (.object target)
  | entry {id target : ObjectId} {entries : List (Value × Value)} {key : Value} :
      InReach arena store roots values (.object id) → store.get? id = some (.dictionary entries) →
      (key, .ref target) ∈ entries → InReach arena store roots values (.object target)
  | field {id classId target : ObjectId} {fields : List Value} :
      InReach arena store roots values (.object id) →
      store.get? id = some (.record classId fields) → .ref target ∈ fields →
      InReach arena store roots values (.object target)
  | instanceClass {id classId : ObjectId} {fields : List Value} :
      InReach arena store roots values (.object id) →
      store.get? id = some (.record classId fields) →
      InReach arena store roots values (.object classId)
  | classVar {id target : ObjectId} {definition : ClassObject} {name : String} :
      InReach arena store roots values (.object id) →
      store.get? id = some (.classObject definition) →
      (name, .ref target) ∈ definition.classVars →
      InReach arena store roots values (.object target)
  | superclass {id parent : ObjectId} {definition : ClassObject} :
      InReach arena store roots values (.object id) →
      store.get? id = some (.classObject definition) → definition.superclass = some parent →
      InReach arena store roots values (.object parent)

section Reach

variable {store : Store} {roots : List ContextId} {values : List Value}

theorem mem_references_iff {value : Value} {id : ObjectId} :
    id ∈ value.references ↔ value = .ref id := by
  cases value with
  | ref other =>
      simp [Value.references, eq_comm]
  | nil | bool _ | int _ | float _ | string _ =>
      simp [Value.references]

/-- What is in reach and still there was found by the search. -/
theorem InReach.reached {node : Node} (inReach : InReach arena store roots values node)
    (present : Node.present arena store node = true) : arena.Reached store roots values node := by
  have live : ∀ {id : ContextId} {context : Context}, arena.get? id = some context →
      Node.present arena store (.context id) = true := by
    intro id context found
    simp [Node.present, Arena.isLive, found]
  have there : ∀ {id : ObjectId} {object : Object}, store.get? id = some object →
      Node.present arena store (.object id) = true := by
    intro id object found
    simp [Node.present, found]
  induction inReach with
  | root member =>
      exact reached_of_handle member present
  | value member =>
      exact reached_of_value member (mem_references_iff.mpr rfl) present
  | outer _ found isOuter inductionHypothesis =>
      exact (inductionHypothesis (live found)).outer found isOuter present
  | localSlot _ found isLocal inductionHypothesis =>
      exact (inductionHypothesis (live found)).localReference found isLocal
        (mem_references_iff.mpr rfl) present
  | blockContext _ found inductionHypothesis =>
      exact (inductionHypothesis (there found)).blockContext found (List.mem_singleton.mpr rfl)
        present
  | blockReceiver _ found isReceiver inductionHypothesis =>
      refine (inductionHypothesis (there found)).reference found ?_ present
      simp [Object.references, mem_references_iff, isReceiver]
  | blockClass _ found isOwner inductionHypothesis =>
      refine (inductionHypothesis (there found)).reference found ?_ present
      simp [Object.references, isOwner]
  | element _ found member inductionHypothesis =>
      refine (inductionHypothesis (there found)).reference found ?_ present
      simpa [Object.references, mem_references_iff] using member
  | key _ found member inductionHypothesis =>
      refine (inductionHypothesis (there found)).reference found ?_ present
      simp only [Object.references, List.mem_flatMap, List.mem_append, mem_references_iff]
      exact ⟨_, member, Or.inl rfl⟩
  | entry _ found member inductionHypothesis =>
      refine (inductionHypothesis (there found)).reference found ?_ present
      simp only [Object.references, List.mem_flatMap, List.mem_append, mem_references_iff]
      exact ⟨_, member, Or.inr rfl⟩
  | field _ found member inductionHypothesis =>
      refine (inductionHypothesis (there found)).reference found ?_ present
      simp only [Object.references, List.mem_append, List.mem_flatMap, mem_references_iff]
      exact Or.inl ⟨_, member, rfl⟩
  | instanceClass _ found inductionHypothesis =>
      refine (inductionHypothesis (there found)).reference found ?_ present
      simp [Object.references]
  | classVar _ found member inductionHypothesis =>
      refine (inductionHypothesis (there found)).reference found ?_ present
      simp only [Object.references, List.mem_append, List.mem_flatMap, mem_references_iff]
      exact Or.inl ⟨_, member, rfl⟩
  | superclass _ found isParent inductionHypothesis =>
      refine (inductionHypothesis (there found)).reference found ?_ present
      simp [Object.references, isParent]

/-- An object in reach brings what it refers to in reach. -/
theorem InReach.reference {id target : ObjectId} {object : Object}
    (inReach : InReach arena store roots values (.object id))
    (found : store.get? id = some object) (member : target ∈ object.references) :
    InReach arena store roots values (.object target) := by
  cases object with
  | array items =>
      simp only [Object.references, List.mem_flatMap, mem_references_iff] at member
      obtain ⟨_, isElement, rfl⟩ := member
      exact .element inReach found isElement
  | dictionary entries =>
      simp only [Object.references, List.mem_flatMap, List.mem_append, mem_references_iff] at member
      obtain ⟨⟨key, value⟩, isEntry, rfl | rfl⟩ := member
      · exact .key inReach found isEntry
      · exact .entry inReach found isEntry
  | block closure =>
      simp only [Object.references, List.mem_append, mem_references_iff, Option.mem_toList]
        at member
      rcases member with isReceiver | isOwner
      · exact .blockReceiver inReach found isReceiver
      · exact .blockClass inReach found isOwner
  | record classId fields =>
      simp only [Object.references, List.mem_append, List.mem_flatMap, mem_references_iff,
        List.mem_singleton] at member
      rcases member with ⟨_, isField, rfl⟩ | rfl
      · exact .field inReach found isField
      · exact .instanceClass inReach found
  | classObject definition =>
      simp only [Object.references, List.mem_append, List.mem_flatMap, mem_references_iff,
        Option.mem_toList] at member
      rcases member with ⟨⟨name, _⟩, isEntry, rfl⟩ | isParent
      · exact .classVar inReach found isEntry
      · exact .superclass inReach found isParent

/-- The search goes only along the links of the relation. -/
theorem InReach.step {node next : Node} (inReach : InReach arena store roots values node)
    (member : next ∈ Node.successors arena store node) :
    InReach arena store roots values next := by
  have successor := (List.mem_filter.mp member).1
  cases node with
  | context id =>
      dsimp only at successor
      cases found : arena.get? id with
      | none =>
          simp [found] at successor
      | some context =>
          simp only [found, Node.ofValues, List.mem_append, List.mem_map, Option.mem_toList,
            List.mem_flatMap, mem_references_iff] at successor
          rcases successor with ⟨outer, isOuter, rfl⟩ | ⟨target, ⟨_, isLocal, rfl⟩, rfl⟩
          · exact .outer inReach found isOuter
          · exact .localSlot inReach found (Array.mem_toList_iff.mp isLocal)
  | object id =>
      dsimp only at successor
      cases found : store.get? id with
      | none =>
          simp [found] at successor
      | some object =>
          simp only [found, List.mem_append, List.mem_map] at successor
          rcases successor with ⟨context, isContext, rfl⟩ | ⟨target, isReference, rfl⟩
          · cases object with
            | block closure =>
                simp only [Object.contexts, List.mem_singleton] at isContext
                exact isContext ▸ .blockContext inReach found
            | array _ | dictionary _ | record _ _ | classObject _ =>
                simp [Object.contexts] at isContext
          · exact inReach.reference found isReference

theorem Reached.inReach {node : Node} (reached : arena.Reached store roots values node) :
    InReach arena store roots values node := by
  obtain ⟨root, member, way⟩ := reached
  have atRoot : InReach arena store roots values root := by
    have isRoot := (List.mem_filter.mp member).1
    simp only [Node.ofValues, List.mem_append, List.mem_map, List.mem_flatMap,
      mem_references_iff] at isRoot
    rcases isRoot with ⟨id, isHandle, rfl⟩ | ⟨id, ⟨_, isValue, rfl⟩, rfl⟩
    · exact .root isHandle
    · exact .value isValue
  exact way.mem_of_closed (fun _ inReach _ next => inReach.step next) atRoot

/-- A context that was live survives a collection exactly if it is in reach. -/
theorem isLive_collect_iff {id : ContextId} (live : arena.isLive id = true) :
    (arena.collect store roots values).2.isLive id = true ↔
      InReach arena store roots values (.context id) := by
  classical
  have kept : (arena.collect store roots values).2.isLive id = true ↔
      arena.Reached store roots values (.context id) := by
    unfold Arena.isLive at live ⊢
    rw [get?_collect]
    by_cases reached : arena.Reached store roots values (.context id)
    · simp [reached, live]
    · simp [reached]
  rw [kept]
  exact ⟨Reached.inReach, fun inReach => inReach.reached live⟩

/-- The contexts that are gone after a collection are those that it has counted. -/
theorem length_freed :
    (arena.collect store roots values).1 =
      (arena.handles.filter fun id => !(arena.collect store roots values).2.isLive id).length := by
  change (arena.handles.filter fun id =>
    !(arena.inUse store roots values).contains (.context id)).length = _
  congr 1
  apply List.filter_congr
  intro id isHandle
  obtain ⟨context, found⟩ := mem_handles.mp isHandle
  have live : arena.isLive id = true := by simp [Arena.isLive, found]
  have same : (arena.inUse store roots values).contains (.context id) = true ↔
      (arena.collect store roots values).2.isLive id = true := by
    rw [Std.HashSet.contains_iff_mem, mem_inUse_iff, isLive_collect_iff live]
    exact ⟨Reached.inReach, fun inReach => inReach.reached live⟩
  rw [Bool.eq_iff_iff.mpr same]

end Reach

/-! ## The whole statement -/

/-- Whatever was asked of an arena before, a collection keeps exactly the live contexts that are in
reach, and keeps them as they are.  It answers how many contexts were freed, the arena knows how
many it has left, and its free list holds exactly the empty places, each once. -/
theorem collect_exact (requests : List Request) (objects : Store) (roots : List ContextId)
    (values : List Value) :
    let arena := empty.served requests
    let (freed, after) := arena.collect objects roots values
    (∀ id, arena.isLive id = true →
      (after.isLive id = true ↔ InReach arena objects roots values (.context id))) ∧
      (∀ id context, after.get? id = some context → arena.get? id = some context) ∧
      freed = (arena.handles.filter fun id => !after.isLive id).length ∧
      after.live = after.handles.length ∧
      after.free.Nodup ∧
      ∀ index, index ∈ after.free ↔
        ∃ place, after.places[index]? = some place ∧ place.context = none := by
  intro arena
  have balanced : Balanced arena := balanced_empty.served requests
  have balancedAfter := (balanced.collect objects roots values).1
  refine ⟨fun id live => isLive_collect_iff live,
    fun id context found => get?_of_get?_collect found, length_freed, balancedAfter.live_eq,
    balancedAfter.free_nodup, fun index => ?_⟩
  constructor
  · exact balancedAfter.free_empty index
  · rintro ⟨place, atPlace, vacant⟩
    exact balancedAfter.empty_free index place atPlace vacant

end Arena

end Missive
