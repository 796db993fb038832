import Missive.Memory.Contexts
import Missive.Proofs.Memory.Arena
import Missive.Proofs.Memory.Reach
import Missive.Proofs.Object.Store

/-!
# The collection of contexts is exact

A context is kept exactly if a way leads to it from the given handles and values, and a context
that is kept stays as it is.  The graph is that of the state before the collection.
-/

namespace Missive

namespace Node

variable {arena : Arena} {store : Store}

/-- All live contexts and all objects. -/
def allPresent (arena : Arena) (store : Store) : List Node :=
  arena.handles.map .context ++ store.ids.map .object

theorem mem_allPresent {node : Node} :
    node ∈ allPresent arena store ↔ present arena store node = true := by
  unfold allPresent
  rw [List.mem_append, List.mem_map, List.mem_map]
  cases node with
  | context id =>
      simp [present, Arena.isLive, Arena.mem_handles, Option.isSome_iff_exists]
  | object id =>
      simp [present, Store.mem_ids]

theorem length_allPresent_le (arena : Arena) (store : Store) :
    (allPresent arena store).length ≤ arena.places.size + store.cells.size := by
  unfold allPresent
  rw [List.length_append, List.length_map, List.length_map]
  exact Nat.add_le_add arena.length_handles_le store.length_ids_le

theorem present_of_mem_successors {node next : Node}
    (member : next ∈ successors arena store node) : present arena store next = true :=
  (List.mem_filter.mp member).2

end Node

namespace Arena

/-- A way leads to the node from one of the handles or values. -/
def Reached (arena : Arena) (store : Store) (roots : List ContextId) (values : List Value)
    (node : Node) : Prop :=
  ∃ root ∈ (roots.map Node.context ++ Node.ofValues values).filter (Node.present arena store),
    Leads (Node.successors arena store) root node

variable {arena : Arena} {store : Store} {roots : List ContextId} {values : List Value}

theorem Reached.present {node : Node} (reached : arena.Reached store roots values node) :
    Node.present arena store node = true := by
  obtain ⟨root, member, way⟩ := reached
  exact way.mem_of_closed (fun _ _ _ next => Node.present_of_mem_successors next)
    (List.mem_filter.mp member).2

theorem Reached.step {node next : Node} (reached : arena.Reached store roots values node)
    (member : next ∈ Node.successors arena store node) :
    arena.Reached store roots values next := by
  obtain ⟨root, rootMember, way⟩ := reached
  exact ⟨root, rootMember, way.step member⟩

theorem reached_of_handle {id : ContextId} (root : id ∈ roots) (live : arena.isLive id = true) :
    arena.Reached store roots values (.context id) :=
  ⟨.context id, List.mem_filter.mpr
    ⟨List.mem_append_left _ (List.mem_map_of_mem root), live⟩, Leads.refl _⟩

theorem reached_of_value {value : Value} {id : ObjectId} (root : value ∈ values)
    (reference : id ∈ value.references) (present : (store.get? id).isSome = true) :
    arena.Reached store roots values (.object id) := by
  refine ⟨.object id, List.mem_filter.mpr ⟨List.mem_append_right _ ?_, present⟩, Leads.refl _⟩
  exact List.mem_map_of_mem (List.mem_flatMap.mpr ⟨value, root, reference⟩)

theorem Reached.outer {id outer : ContextId} {context : Context}
    (reached : arena.Reached store roots values (.context id))
    (found : arena.get? id = some context) (isOuter : context.outer = some outer)
    (live : arena.isLive outer = true) : arena.Reached store roots values (.context outer) := by
  refine reached.step (List.mem_filter.mpr ⟨?_, live⟩)
  dsimp only
  rw [found]
  refine List.mem_append_left _ (List.mem_map_of_mem ?_)
  rw [isOuter]
  exact List.mem_singleton.mpr rfl

theorem Reached.localReference {id : ContextId} {context : Context} {value : Value}
    {reference : ObjectId} (reached : arena.Reached store roots values (.context id))
    (found : arena.get? id = some context) (isLocal : value ∈ context.locals)
    (member : reference ∈ value.references) (present : (store.get? reference).isSome = true) :
    arena.Reached store roots values (.object reference) := by
  refine reached.step (List.mem_filter.mpr ⟨?_, present⟩)
  dsimp only
  rw [found]
  refine List.mem_append_right _ (List.mem_map_of_mem (List.mem_flatMap.mpr ⟨value, ?_, member⟩))
  exact Array.mem_toList_iff.mpr isLocal

theorem Reached.blockContext {id : ObjectId} {object : Object} {context : ContextId}
    (reached : arena.Reached store roots values (.object id))
    (found : store.get? id = some object) (member : context ∈ object.contexts)
    (live : arena.isLive context = true) : arena.Reached store roots values (.context context) := by
  refine reached.step (List.mem_filter.mpr ⟨?_, live⟩)
  dsimp only
  rw [found]
  exact List.mem_append_left _ (List.mem_map_of_mem member)

theorem Reached.reference {id reference : ObjectId} {object : Object}
    (reached : arena.Reached store roots values (.object id))
    (found : store.get? id = some object) (member : reference ∈ object.references)
    (present : (store.get? reference).isSome = true) :
    arena.Reached store roots values (.object reference) := by
  refine reached.step (List.mem_filter.mpr ⟨?_, present⟩)
  dsimp only
  rw [found]
  exact List.mem_append_right _ (List.mem_map_of_mem member)

/-- The search marks exactly what can be reached. -/
theorem mem_inUse_iff {node : Node} :
    node ∈ arena.inUse store roots values ↔ arena.Reached store roots values node := by
  refine mem_reachable_iff (Node.allPresent arena store) ?_
    (Node.length_allPresent_le arena store) ?_
  · intro source _ target next
    exact Node.mem_allPresent.mpr (Node.present_of_mem_successors next)
  · intro root member
    exact Node.mem_allPresent.mpr (List.mem_filter.mp member).2

/-- The places of live contexts are different. -/
theorem nodup_handles_index (arena : Arena) : (arena.handles.map ContextId.index).Nodup := by
  have places : (arena.handles.map ContextId.index).Sublist
      (arena.places.toList.zipIdx.map Prod.snd) := by
    unfold Arena.handles
    rw [List.map_filterMap]
    have shape : (arena.places.toList.zipIdx.filterMap fun entry =>
        Option.map ContextId.index
          (if entry.1.context.isSome then some ⟨entry.2, entry.1.generation⟩ else none)) =
        (arena.places.toList.zipIdx.filter fun entry => entry.1.context.isSome).map Prod.snd := by
      rw [← List.filterMap_eq_map, List.filterMap_filter]
      apply List.filterMap_congr
      intro entry _
      by_cases occupied : entry.1.context.isSome = true
      · simp [occupied]
      · simp [occupied]
    rw [shape]
    exact List.filter_sublist.map Prod.snd
  rw [List.zipIdx_map_snd] at places
  exact places.nodup List.nodup_range'

/-- The contexts that a collection frees. -/
theorem mem_unused {id : ContextId} :
    id ∈ arena.handles.filter (fun id => !(arena.inUse store roots values).contains (.context id)) ↔
      (∃ context, arena.get? id = some context) ∧
        ¬ arena.Reached store roots values (.context id) := by
  rw [List.mem_filter, Arena.mem_handles, Bool.not_eq_true', ← mem_inUse_iff,
    ← Std.HashSet.contains_iff_mem, Bool.not_eq_true]

open Classical in
/-- A collection keeps exactly the contexts that can be reached, and keeps them as they are. -/
theorem get?_collect (id : ContextId) :
    (arena.collect store roots values).2.get? id =
      if arena.Reached store roots values (.context id) then arena.get? id else none := by
  change (arena.freeAll _).get? id = _
  rw [get?_freeAll]
  by_cases reached : arena.Reached store roots values (.context id)
  · have present := reached.present
    obtain ⟨context, found⟩ := Option.isSome_iff_exists.mp present
    rw [if_pos reached, if_neg]
    rw [List.mem_map]
    rintro ⟨other, unused, samePlace⟩
    obtain ⟨⟨otherContext, otherFound⟩, notReached⟩ := mem_unused.mp unused
    have same := generation_unique found otherFound samePlace
    exact notReached (same ▸ reached)
  · rw [if_neg reached]
    cases found : arena.get? id with
    | none =>
        rw [ite_self]
    | some context =>
        rw [if_pos]
        exact List.mem_map.mpr ⟨id, mem_unused.mpr ⟨⟨context, found⟩, reached⟩, rfl⟩

theorem get?_of_get?_collect {id : ContextId} {context : Context}
    (found : (arena.collect store roots values).2.get? id = some context) :
    arena.get? id = some context := by
  classical
  rw [get?_collect] at found
  split at found
  · exact found
  · cases found

theorem WellFormed.collect (wellFormed : WellFormed arena) :
    WellFormed (arena.collect store roots values).2 := by
  refine wellFormed.freeAll ?_ ?_
  · exact (List.filter_sublist.map ContextId.index).nodup (nodup_handles_index arena)
  · intro index member
    obtain ⟨id, unused, rfl⟩ := List.mem_map.mp member
    obtain ⟨⟨context, found⟩, _⟩ := mem_unused.mp unused
    exact ⟨_, get?_eq_some_iff.mp found, Option.some_ne_none context⟩

theorem Issued.collect {id : ContextId} (issued : Issued arena id) :
    Issued (arena.collect store roots values).2 id :=
  issued.freeAll _

end Arena

end Missive
