import Missive.Proofs.Alike.Stores

/-!
# Arenas that correspond

Linked contexts are live and hold the same local variables.  A new context gets a handle on either
side that was not in use there, so the correspondence stays one to one.
-/

namespace Missive

namespace Link

variable {link later : Link} {left right : Arena}

/-! ## Reading -/

theorem Arenas.load? (arenas : link.Arenas left right) {leftId rightId : ContextId}
    (linked : link.contexts leftId rightId) (slot : Nat) :
    ∃ value, left.load? leftId slot = some value ∧ right.load? rightId slot = some value ∧
      link.Knows value := by
  obtain ⟨leftContext, rightContext, leftFound, rightFound, contexts⟩ := arenas.linked linked
  unfold Arena.load?
  rw [leftFound, rightFound]
  refine ⟨leftContext.locals[slot]?.getD .nil, rfl, ?_, ?_⟩
  · rw [contexts.locals]
    rfl
  · cases atSlot : leftContext.locals[slot]? with
    | none =>
        exact knows_nil
    | some value =>
        exact contexts.known value (Array.mem_of_getElem? atSlot)

theorem Arenas.isLive (arenas : link.Arenas left right) {leftId rightId : ContextId}
    (linked : link.contexts leftId rightId) :
    left.isLive leftId = true ∧ right.isLive rightId = true := by
  obtain ⟨leftContext, rightContext, leftFound, rightFound, _⟩ := arenas.linked linked
  unfold Arena.isLive
  rw [leftFound, rightFound]
  exact ⟨rfl, rfl⟩

/-- The ways outward from two linked contexts pass linked contexts and end together. -/
theorem Arenas.resolve? (arenas : link.Arenas left right) (depth : Nat) {leftId rightId : ContextId}
    (linked : link.contexts leftId rightId) :
    ∃ leftTarget rightTarget, left.resolve? leftId depth = some leftTarget ∧
      right.resolve? rightId depth = some rightTarget ∧ link.Outers leftTarget rightTarget := by
  induction depth generalizing leftId rightId with
  | zero =>
      exact ⟨some leftId, some rightId, rfl, rfl, .some linked⟩
  | succ depth inductionHypothesis =>
      obtain ⟨leftContext, rightContext, leftFound, rightFound, contexts⟩ := arenas.linked linked
      have outers := contexts.outers
      rw [Arena.resolve?, Arena.resolve?, leftFound, rightFound]
      dsimp only [Option.bind_eq_bind, Option.bind_some]
      generalize leftContext.outer = leftOuter, rightContext.outer = rightOuter at outers ⊢
      cases outers with
      | none =>
          exact ⟨none, none, rfl, rfl, .none⟩
      | some further =>
          exact inductionHypothesis further

/-! ## Writing -/

theorem Arenas.grow (arenas : link.Arenas left right) (grows : Grows link later) :
    later.Arenas left right where
  leftWellFormed := arenas.leftWellFormed
  rightWellFormed := arenas.rightWellFormed
  linked := by
    intro leftId rightId linked
    rw [grows.contexts] at linked
    obtain ⟨leftContext, rightContext, leftFound, rightFound, contexts⟩ := arenas.linked linked
    exact ⟨leftContext, rightContext, leftFound, rightFound, grows.within.linkedContexts contexts⟩
  leftUnique := by
    rw [grows.contexts]
    exact arenas.leftUnique
  rightUnique := by
    rw [grows.contexts]
    exact arenas.rightUnique

theorem Contexts.store {leftContext rightContext : Context}
    (contexts : link.Contexts leftContext rightContext) (slot : Nat) {value : Value}
    (known : link.Knows value) :
    link.Contexts (Arena.Context.store leftContext slot value)
      (Arena.Context.store rightContext slot value) := by
  refine ⟨?_, ?_, contexts.outers⟩
  · unfold Arena.Context.store
    rw [contexts.locals]
  · intro other member
    unfold Arena.Context.store at member
    rcases Array.mem_or_eq_of_mem_setIfInBounds member with old | rfl
    · rcases Array.mem_append.mp old with before | padding
      · exact contexts.known other before
      · exact Array.eq_of_mem_replicate padding ▸ knows_nil
    · exact known

/-- Storing the same value in linked contexts keeps them linked. -/
theorem Arenas.put (arenas : link.Arenas left right) {leftId rightId : ContextId}
    (linked : link.contexts leftId rightId) (slot : Nat) {value : Value}
    (known : link.Knows value) :
    link.Arenas (left.put leftId slot value) (right.put rightId slot value) := by
  obtain ⟨leftContext, rightContext, leftFound, rightFound, contexts⟩ := arenas.linked linked
  refine ⟨arenas.leftWellFormed.put leftId slot value,
    arenas.rightWellFormed.put rightId slot value,
    ?_, arenas.leftUnique, arenas.rightUnique⟩
  intro leftOther rightOther otherLinked
  rw [Arena.get?_put leftFound, Arena.get?_put rightFound]
  by_cases here : leftOther = leftId
  · have there : rightOther = rightId := by
      rw [here] at otherLinked
      exact arenas.rightUnique otherLinked linked
    rw [if_pos here, if_pos there]
    exact ⟨_, _, rfl, rfl, contexts.store slot known⟩
  · have elsewhere : rightOther ≠ rightId := by
      intro there
      rw [there] at otherLinked
      exact here (arenas.leftUnique otherLinked linked)
    rw [if_neg here, if_neg elsewhere]
    exact arenas.linked otherLinked

/-- The link with one more pair of contexts. -/
def join (link : Link) (leftId rightId : ContextId) : Link where
  objects := link.objects
  contexts first second := link.contexts first second ∨ (first = leftId ∧ second = rightId)
  pairing := link.pairing

theorem within_join (link : Link) (leftId rightId : ContextId) :
    Within link (link.join leftId rightId) :=
  ⟨fun linked => linked, Or.inl, rfl⟩

theorem Stores.join {leftStore rightStore : Store} (stores : link.Stores leftStore rightStore)
    (leftId rightId : ContextId) : (link.join leftId rightId).Stores leftStore rightStore := by
  refine ⟨stores.size, fun linked => ?_⟩
  obtain ⟨first, second, firstFound, secondFound, firstFixed, secondFixed, objects⟩ :=
    stores.linked linked
  exact ⟨first, second, firstFound, secondFound, firstFixed, secondFixed,
    (within_join link leftId rightId).linkedObjects objects⟩

theorem Arenas.left_ne_alloc (arenas : link.Arenas left right) (context : Context)
    {leftId rightId : ContextId} (linked : link.contexts leftId rightId) :
    leftId ≠ (left.alloc context).1 := by
  intro same
  obtain ⟨_, _, leftFound, _⟩ := arenas.linked linked
  rw [same, Arena.get?_alloc_fresh arenas.leftWellFormed context] at leftFound
  cases leftFound

theorem Arenas.right_ne_alloc (arenas : link.Arenas left right) (context : Context)
    {leftId rightId : ContextId} (linked : link.contexts leftId rightId) :
    rightId ≠ (right.alloc context).1 := by
  intro same
  obtain ⟨_, _, _, rightFound, _⟩ := arenas.linked linked
  rw [same, Arena.get?_alloc_fresh arenas.rightWellFormed context] at rightFound
  cases rightFound

/-- Two new contexts are linked with each other. -/
theorem Arenas.alloc (arenas : link.Arenas left right) {leftContext rightContext : Context}
    (contexts : link.Contexts leftContext rightContext) :
    (link.join (left.alloc leftContext).1 (right.alloc rightContext).1).Arenas
      (left.alloc leftContext).2 (right.alloc rightContext).2 := by
  have within := within_join link (left.alloc leftContext).1 (right.alloc rightContext).1
  refine ⟨arenas.leftWellFormed.alloc leftContext, arenas.rightWellFormed.alloc rightContext,
    ?_, ?_, ?_⟩
  · intro leftId rightId linked
    rw [Arena.get?_alloc arenas.leftWellFormed, Arena.get?_alloc arenas.rightWellFormed]
    rcases linked with old | ⟨rfl, rfl⟩
    · rw [if_neg (arenas.left_ne_alloc leftContext old),
        if_neg (arenas.right_ne_alloc rightContext old)]
      obtain ⟨first, second, firstFound, secondFound, related⟩ := arenas.linked old
      exact ⟨first, second, firstFound, secondFound, within.linkedContexts related⟩
    · rw [if_pos rfl, if_pos rfl]
      exact ⟨leftContext, rightContext, rfl, rfl, within.linkedContexts contexts⟩
  · rintro leftId other rightId (old | ⟨rfl, rfl⟩) (otherOld | ⟨rfl, sameRight⟩)
    · exact arenas.leftUnique old otherOld
    · exact (arenas.right_ne_alloc rightContext old sameRight).elim
    · exact (arenas.right_ne_alloc rightContext otherOld rfl).elim
    · rfl
  · rintro leftId rightId other (old | ⟨rfl, rfl⟩) (otherOld | ⟨sameLeft, rfl⟩)
    · exact arenas.rightUnique old otherOld
    · exact (arenas.left_ne_alloc leftContext old sameLeft).elim
    · exact (arenas.left_ne_alloc leftContext otherOld rfl).elim
    · rfl

end Link

end Missive
