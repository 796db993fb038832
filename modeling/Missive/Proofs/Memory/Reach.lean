import Mathlib.Data.Finset.Card
import Mathlib.Logic.Relation
import Missive.Memory.Reach

/-!
# Reachability is what the search finds

The search for reachable nodes keeps a set of nodes that have been followed and a list of nodes
that wait.  It is exact: the nodes it answers are those to which a way leads from a root.

One half holds for any fuel.  The other half needs that the fuel covers the nodes that have not
been followed yet.  A finite universe that is closed under successors and holds the waiting nodes
bounds them: each node that takes a unit of fuel leaves the part of the universe not yet seen.
-/

namespace Missive

variable {α : Type} {successors : α → List α}

/-- A way leads from one node to another along successors. -/
def Leads (successors : α → List α) : α → α → Prop :=
  Relation.ReflTransGen fun source target => target ∈ successors source

namespace Leads

theorem refl (node : α) : Leads successors node node :=
  Relation.ReflTransGen.refl

theorem step {source middle target : α} (way : Leads successors source middle)
    (next : target ∈ successors middle) : Leads successors source target :=
  Relation.ReflTransGen.tail way next

theorem first {source middle target : α} (next : middle ∈ successors source)
    (way : Leads successors middle target) : Leads successors source target :=
  Relation.ReflTransGen.head next way

/-- A set that is closed under successors holds everything to which it leads. -/
theorem mem_of_closed {closed : α → Prop}
    (successorsInside : ∀ source, closed source → ∀ target ∈ successors source, closed target)
    {source target : α} (inside : closed source) (way : Leads successors source target) :
    closed target := by
  induction way with
  | refl =>
      exact inside
  | tail _ next inductionHypothesis =>
      exact successorsInside _ inductionHypothesis _ next

end Leads

variable [BEq α] [Hashable α] [LawfulBEq α]

/-- The search answers only nodes that were seen before or to which a waiting node leads. -/
theorem leads_of_mem_reach (fuel : Nat) (work : List α) (seen : Std.HashSet α) {node : α}
    (found : node ∈ reach successors fuel work seen) :
    node ∈ seen ∨ ∃ root ∈ work, Leads successors root node := by
  fun_induction reach successors fuel work seen with
  | case1 =>
      exact Or.inl found
  | case2 fuel seen head rest headSeen inductionHypothesis =>
      rcases inductionHypothesis found with seenBefore | ⟨root, member, way⟩
      · exact Or.inl seenBefore
      · exact Or.inr ⟨root, List.mem_cons_of_mem head member, way⟩
  | case3 =>
      exact Or.inl found
  | case4 seen head rest headNew remaining inductionHypothesis =>
      rcases inductionHypothesis found with seenBefore | ⟨root, member, way⟩
      · rcases Std.HashSet.mem_insert.mp seenBefore with same | seenBefore
        · exact Or.inr ⟨head, List.mem_cons_self, eq_of_beq same ▸ Leads.refl head⟩
        · exact Or.inl seenBefore
      · rcases List.mem_append.mp member with next | waiting
        · exact Or.inr ⟨head, List.mem_cons_self, way.first next⟩
        · exact Or.inr ⟨root, List.mem_cons_of_mem head waiting, way⟩

open Classical in
/-- The nodes of a universe that have not been seen. -/
noncomputable def unseen (nodes : Finset α) (seen : Std.HashSet α) : Finset α :=
  nodes.filter fun node => node ∉ seen

/-- Following a new node takes it out of what has not been seen. -/
theorem card_unseen_insert_lt {nodes : Finset α} {seen : Std.HashSet α} {node : α}
    (inside : node ∈ nodes) (new : node ∉ seen) :
    (unseen nodes (seen.insert node)).card < (unseen nodes seen).card := by
  apply Finset.card_lt_card
  rw [Finset.ssubset_iff_of_subset]
  · refine ⟨node, ?_, ?_⟩
    · exact Finset.mem_filter.mpr ⟨inside, new⟩
    · intro still
      exact (Finset.mem_filter.mp still).2 (Std.HashSet.mem_insert.mpr (Or.inl BEq.rfl))
  · intro other member
    obtain ⟨otherInside, otherNew⟩ := Finset.mem_filter.mp member
    refine Finset.mem_filter.mpr ⟨otherInside, fun seenBefore => ?_⟩
    exact otherNew (Std.HashSet.mem_insert.mpr (Or.inr seenBefore))

/-- A state of the search: what waits lies in the universe, and the successors of what was seen have
been seen or wait. -/
structure Frontier (successors : α → List α) (nodes : Finset α) (work : List α)
    (seen : Std.HashSet α) : Prop where
  inside : ∀ node ∈ work, node ∈ nodes
  pending : ∀ source ∈ seen, ∀ target ∈ successors source, target ∈ seen ∨ target ∈ work

namespace Frontier

variable {nodes : Finset α} {head : α} {rest : List α} {seen : Std.HashSet α}

omit [LawfulBEq α] in
/-- A node that was seen before has to wait no longer. -/
theorem skip (frontier : Frontier successors nodes (head :: rest) seen) (headSeen : head ∈ seen) :
    Frontier successors nodes rest seen := by
  refine ⟨fun node member => frontier.inside node (List.mem_cons_of_mem head member), ?_⟩
  intro source sourceSeen target next
  rcases frontier.pending source sourceSeen target next with seenBefore | waiting
  · exact Or.inl seenBefore
  · rcases List.mem_cons.mp waiting with rfl | waiting
    · exact Or.inl headSeen
    · exact Or.inr waiting

/-- A node is seen, and its successors wait in its place. -/
theorem follow (frontier : Frontier successors nodes (head :: rest) seen)
    (nodesClosed : ∀ source ∈ nodes, ∀ target ∈ successors source, target ∈ nodes) :
    Frontier successors nodes (successors head ++ rest) (seen.insert head) := by
  constructor
  · intro node member
    rcases List.mem_append.mp member with next | waiting
    · exact nodesClosed head (frontier.inside head List.mem_cons_self) node next
    · exact frontier.inside node (List.mem_cons_of_mem head waiting)
  · intro source sourceSeen target next
    rcases Std.HashSet.mem_insert.mp sourceSeen with same | seenBefore
    · rw [← eq_of_beq same] at next
      exact Or.inr (List.mem_append_left rest next)
    · rcases frontier.pending source seenBefore target next with targetSeen | waiting
      · exact Or.inl (Std.HashSet.mem_insert.mpr (Or.inr targetSeen))
      · rcases List.mem_cons.mp waiting with rfl | waiting
        · exact Or.inl (Std.HashSet.mem_insert.mpr (Or.inl BEq.rfl))
        · exact Or.inr (List.mem_append_right _ waiting)

end Frontier

/-- With enough fuel the answer holds what was seen and what waited, and is closed under
successors. -/
theorem reach_closed (nodes : Finset α)
    (nodesClosed : ∀ source ∈ nodes, ∀ target ∈ successors source, target ∈ nodes)
    (fuel : Nat) (work : List α) (seen : Std.HashSet α)
    (frontier : Frontier successors nodes work seen) (enough : (unseen nodes seen).card ≤ fuel) :
    (∀ node, node ∈ seen ∨ node ∈ work → node ∈ reach successors fuel work seen) ∧
    ∀ source ∈ reach successors fuel work seen, ∀ target ∈ successors source,
      target ∈ reach successors fuel work seen := by
  fun_induction reach successors fuel work seen with
  | case1 fuel seen =>
      constructor
      · intro node member
        exact member.resolve_right List.not_mem_nil
      · intro source sourceSeen target next
        exact (frontier.pending source sourceSeen target next).resolve_right List.not_mem_nil
  | case2 fuel seen head rest headSeen inductionHypothesis =>
      have headIn : head ∈ seen := Std.HashSet.contains_iff_mem.mp headSeen
      obtain ⟨covers, closed⟩ := inductionHypothesis (frontier.skip headIn) enough
      refine ⟨fun node member => ?_, closed⟩
      rcases member with seenBefore | waiting
      · exact covers node (Or.inl seenBefore)
      · rcases List.mem_cons.mp waiting with rfl | waiting
        · exact covers node (Or.inl headIn)
        · exact covers node (Or.inr waiting)
  | case3 seen head rest headNew =>
      -- without fuel nothing of the universe is unseen, but the first waiting node is
      have headUnseen : head ∈ unseen nodes seen :=
        Finset.mem_filter.mpr ⟨frontier.inside head List.mem_cons_self,
          fun seenBefore => headNew (Std.HashSet.contains_iff_mem.mpr seenBefore)⟩
      have nothingUnseen := Finset.card_eq_zero.mp (Nat.le_zero.mp enough)
      rw [nothingUnseen] at headUnseen
      exact (Finset.notMem_empty head headUnseen).elim
  | case4 seen head rest headNew remaining inductionHypothesis =>
      have headNotIn : head ∉ seen :=
        fun seenBefore => headNew (Std.HashSet.contains_iff_mem.mpr seenBefore)
      have fewer := card_unseen_insert_lt (frontier.inside head List.mem_cons_self) headNotIn
      obtain ⟨covers, closed⟩ := inductionHypothesis (frontier.follow nodesClosed) (by omega)
      refine ⟨fun node member => ?_, closed⟩
      rcases member with seenBefore | waiting
      · exact covers node (Or.inl (Std.HashSet.mem_insert.mpr (Or.inr seenBefore)))
      · rcases List.mem_cons.mp waiting with rfl | waiting
        · exact covers node (Or.inl (Std.HashSet.mem_insert.mpr (Or.inl BEq.rfl)))
        · exact covers node (Or.inr (List.mem_append_right _ waiting))

/-- In a graph of at most `size` nodes the search finds exactly the nodes to which a root
leads. -/
theorem mem_reachable_iff (nodes : List α)
    (nodesClosed : ∀ source ∈ nodes, ∀ target ∈ successors source, target ∈ nodes)
    {size : Nat} (bounded : nodes.length ≤ size) {roots : List α}
    (rootsInside : ∀ root ∈ roots, root ∈ nodes) {node : α} :
    node ∈ reachable successors size roots ↔ ∃ root ∈ roots, Leads successors root node := by
  classical
  constructor
  · intro found
    rcases leads_of_mem_reach size roots ∅ found with impossible | way
    · exact (Std.HashSet.not_mem_empty impossible).elim
    · exact way
  · rintro ⟨root, member, way⟩
    have enough : (unseen nodes.toFinset (∅ : Std.HashSet α)).card ≤ size :=
      calc (unseen nodes.toFinset ∅).card
          ≤ nodes.toFinset.card := Finset.card_filter_le _ _
        _ ≤ nodes.length := nodes.toFinset_card_le
        _ ≤ size := bounded
    obtain ⟨covers, closed⟩ := reach_closed nodes.toFinset
      (fun source inside target next =>
        List.mem_toFinset.mpr (nodesClosed source (List.mem_toFinset.mp inside) target next))
      size roots ∅
      ⟨fun node inside => List.mem_toFinset.mpr (rootsInside node inside),
        fun source impossible => (Std.HashSet.not_mem_empty impossible).elim⟩ enough
    exact way.mem_of_closed closed (covers root (Or.inr member))

end Missive
