import Missive.Proofs.Memory.Exactness

/-!
# Handles are never confused

Places in the arena are used again, but handles are not.  Once a handle has been given out it stays
issued, and the handle of a new context has not been issued before.  A handle whose context was
freed therefore never gets another one, and a program that still has it is told so.

As long as a context lives, its local variables are what the requests through its own handle made of
them, whatever happens to other contexts.
-/

namespace Missive

namespace Arena

/-- The handles that requests give out, in order. -/
def given (arena : Arena) : List Request → List ContextId
  | [] => []
  | .alloc context :: rest => (arena.alloc context).1 :: (arena.alloc context).2.given rest
  | request :: rest => (arena.serve request).given rest

/-- The value that a request stores in a slot of a context, if it does. -/
def Request.stored? (id : ContextId) (slot : Nat) : Request → Option Value
  | .store other place value => if other = id ∧ place = slot then some value else none
  | .alloc _ | .collect _ _ _ => none

/-- The value that requests have stored last in a slot of a context, if they have. -/
def lastStored? (id : ContextId) (slot : Nat) (requests : List Request) : Option Value :=
  requests.reverse.findSome? (Request.stored? id slot)

theorem lastStored?_append_singleton (id : ContextId) (slot : Nat) (requests : List Request)
    (request : Request) :
    lastStored? id slot (requests ++ [request]) =
      (request.stored? id slot).or (lastStored? id slot requests) := by
  unfold lastStored?
  rw [List.reverse_append, List.reverse_singleton, List.findSome?_append, List.findSome?_singleton]

theorem served_append (arena : Arena) (requests further : List Request) :
    arena.served (requests ++ further) = (arena.served requests).served further :=
  List.foldl_append

/-! ## One request -/

variable {arena : Arena} {id : ContextId}

theorem isLive_iff : arena.isLive id = true ↔ ∃ context, arena.get? id = some context :=
  Option.isSome_iff_exists

theorem Issued.serve (wellFormed : WellFormed arena) (issued : Issued arena id)
    (request : Request) : Issued (arena.serve request) id := by
  cases request with
  | alloc context =>
      exact issued.alloc wellFormed context
  | store other slot value =>
      unfold Arena.serve Arena.store?
      by_cases live : arena.isLive other = true
      · simpa [live] using issued.put other slot value
      · simpa [live] using issued
  | collect objects roots values =>
      exact issued.collect

/-- The new value of one slot, and the old values of all others. -/
theorem getElem?_store (context : Context) (place : Nat) (value : Value) (slot : Nat) :
    (Context.store context place value).locals[slot]?.getD .nil =
      if place = slot then value else context.locals[slot]?.getD .nil := by
  unfold Context.store
  by_cases here : place = slot
  · subst here
    simp
    omega
  · simp only [here, if_false, Array.getElem?_setIfInBounds_ne here]
    by_cases inside : slot < context.locals.size
    · rw [Array.getElem?_append_left inside]
    · rw [Array.getElem?_append_right (Nat.le_of_not_lt inside),
        Array.getElem?_eq_none (Nat.le_of_not_lt inside), Array.getElem?_replicate]
      split <;> rfl

/-- A handle that was issued is live after a request only if it was live before, and then the
request has changed no more than the slot in which it stores. -/
theorem load?_serve (wellFormed : WellFormed arena) (issued : Issued arena id) (request : Request)
    (live : (arena.serve request).isLive id = true) :
    arena.isLive id = true ∧ ∀ slot, (arena.serve request).load? id slot =
      (request.stored? id slot).or (arena.load? id slot) := by
  cases request with
  | alloc context =>
      have notNew : id ≠ (arena.alloc context).1 := by
        intro same
        exact not_issued_alloc wellFormed context (same ▸ issued)
      have unchanged : (arena.alloc context).2.get? id = arena.get? id := by
        rw [get?_alloc wellFormed, if_neg notNew]
      refine ⟨?_, fun slot => ?_⟩
      · simpa [Arena.isLive, Arena.serve, unchanged] using live
      · simp [Arena.load?, Arena.serve, Request.stored?, unchanged]
  | store other place value =>
      by_cases otherLive : arena.isLive other = true
      · have isPut : arena.serve (.store other place value) = arena.put other place value := by
          simp [Arena.serve, Arena.store?, otherLive]
        obtain ⟨context, found⟩ := isLive_iff.mp otherLive
        by_cases same : id = other
        · subst same
          refine ⟨otherLive, fun slot => ?_⟩
          have foundLater := get?_put found place value id
          rw [if_pos rfl] at foundLater
          simp only [isPut, Arena.load?, foundLater, found, Option.bind_eq_bind, Option.bind_some,
            Request.stored?, true_and, Option.pure_def, getElem?_store]
          split <;> rfl
        · have unchanged : (arena.put other place value).get? id = arena.get? id := by
            rw [get?_put found, if_neg same]
          have notHere : other ≠ id := Ne.symm same
          rw [isPut] at live ⊢
          refine ⟨?_, fun slot => ?_⟩
          · simpa [Arena.isLive, unchanged] using live
          · simp [Arena.load?, Request.stored?, notHere, unchanged]
      · have unchanged : arena.serve (.store other place value) = arena := by
          simp [Arena.serve, Arena.store?, otherLive]
        rw [unchanged] at live ⊢
        have notHere : other ≠ id := by
          rintro rfl
          exact otherLive live
        refine ⟨live, fun slot => ?_⟩
        simp [Request.stored?, notHere]
  | collect objects roots values =>
      obtain ⟨context, found⟩ := isLive_iff.mp live
      have before := get?_of_get?_collect found
      refine ⟨isLive_iff.mpr ⟨context, before⟩, fun slot => ?_⟩
      simp only [Arena.serve] at found
      simp [Arena.load?, Arena.serve, Request.stored?, found, before]

/-- Only a new context makes a handle live. -/
theorem live_or_new_of_serve (wellFormed : WellFormed arena) {request : Request}
    (live : (arena.serve request).isLive id = true) :
    arena.isLive id = true ∨
      ∃ context, request = .alloc context ∧ (arena.alloc context).1 = id := by
  cases request with
  | alloc context =>
      by_cases isNew : (arena.alloc context).1 = id
      · exact Or.inr ⟨context, rfl, isNew⟩
      · have unchanged := get?_alloc wellFormed context id
        rw [if_neg (Ne.symm isNew)] at unchanged
        simp only [Arena.serve, Arena.isLive, unchanged] at live
        exact Or.inl live
  | store other slot value =>
      by_cases otherLive : arena.isLive other = true
      · by_cases same : id = other
        · exact Or.inl (same ▸ otherLive)
        · obtain ⟨context, found⟩ := isLive_iff.mp otherLive
          have unchanged := get?_put found slot value id
          rw [if_neg same] at unchanged
          simp only [Arena.serve, Arena.store?, otherLive, if_true, Option.getD_some] at live
          exact Or.inl (by simpa [Arena.isLive, unchanged] using live)
      · simp only [Arena.serve, Arena.store?, otherLive, Bool.false_eq_true, if_false,
          Option.getD_none] at live
        exact Or.inl live
  | collect objects roots values =>
      obtain ⟨context, found⟩ := isLive_iff.mp live
      exact Or.inl (isLive_iff.mpr ⟨context, get?_of_get?_collect found⟩)

/-! ## Any number of requests -/

theorem Issued.served (balanced : Balanced arena) (issued : Issued arena id)
    (requests : List Request) : Issued (arena.served requests) id := by
  induction requests generalizing arena with
  | nil =>
      exact issued
  | cons request rest inductionHypothesis =>
      exact inductionHypothesis (balanced.serve request)
        (issued.serve balanced.toWellFormed request)

/-- What holds of one request holds of requests one after the other. -/
theorem load?_served (balanced : Balanced arena) (issued : Issued arena id)
    (requests : List Request) (live : (arena.served requests).isLive id = true) :
    arena.isLive id = true ∧ ∀ slot, (arena.served requests).load? id slot =
      (lastStored? id slot requests).or (arena.load? id slot) := by
  induction requests using List.reverseRecOn with
  | nil =>
      exact ⟨live, fun slot => rfl⟩
  | append_singleton requests request inductionHypothesis =>
      have isLast : arena.served (requests ++ [request]) = (arena.served requests).serve request :=
        served_append arena requests [request]
      rw [isLast] at live ⊢
      obtain ⟨liveBefore, oneMore⟩ := load?_serve (balanced.served requests).toWellFormed
        (issued.served balanced requests) request live
      obtain ⟨liveAtStart, before⟩ := inductionHypothesis liveBefore
      refine ⟨liveAtStart, fun slot => ?_⟩
      rw [oneMore, before, lastStored?_append_singleton, Option.or_assoc]

/-- None of the handles that are given out has been issued before. -/
theorem not_issued_of_mem_given (balanced : Balanced arena) {requests : List Request}
    (isGiven : id ∈ arena.given requests) : ¬ Issued arena id := by
  induction requests generalizing arena with
  | nil =>
      cases isGiven
  | cons request rest inductionHypothesis =>
      have later : ∀ request : Request, id ∈ (arena.serve request).given rest →
          ¬ Issued arena id := by
        intro request isGivenLater issued
        exact inductionHypothesis (balanced.serve request) isGivenLater
          (issued.serve balanced.toWellFormed request)
      cases request with
      | alloc context =>
          rcases List.mem_cons.mp isGiven with rfl | isGivenLater
          · exact not_issued_alloc balanced.toWellFormed context
          · exact later (.alloc context) isGivenLater
      | store _ _ _ | collect _ _ _ =>
          exact later _ isGiven

theorem nodup_given (balanced : Balanced arena) (requests : List Request) :
    (arena.given requests).Nodup := by
  induction requests generalizing arena with
  | nil =>
      exact List.nodup_nil
  | cons request rest inductionHypothesis =>
      have later := inductionHypothesis (balanced.serve request)
      cases request with
      | alloc context =>
          refine List.nodup_cons.mpr ⟨fun again => ?_, later⟩
          exact not_issued_of_mem_given (balanced.alloc context) again
            (issued_alloc balanced.toWellFormed context)
      | store _ _ _ | collect _ _ _ =>
          exact later

theorem issued_of_mem_given (balanced : Balanced arena) {requests : List Request}
    (isGiven : id ∈ arena.given requests) : Issued (arena.served requests) id := by
  induction requests generalizing arena with
  | nil =>
      cases isGiven
  | cons request rest inductionHypothesis =>
      have later := inductionHypothesis (balanced.serve request)
      cases request with
      | alloc context =>
          rcases List.mem_cons.mp isGiven with rfl | isGivenLater
          · exact (issued_alloc balanced.toWellFormed context).served (balanced.alloc context) rest
          · exact later isGivenLater
      | store _ _ _ | collect _ _ _ =>
          exact later isGiven

/-- A live handle is that of a context which some request has brought. -/
theorem exists_alloc_of_isLive {requests : List Request}
    (live : (empty.served requests).isLive id = true) :
    ∃ earlier context later, requests = earlier ++ .alloc context :: later ∧
      ((empty.served earlier).alloc context).1 = id := by
  induction requests using List.reverseRecOn with
  | nil =>
      simp [served, Arena.isLive, Arena.get?, Arena.empty] at live
  | append_singleton requests request inductionHypothesis =>
      have isLast : empty.served (requests ++ [request]) =
          (empty.served requests).serve request := served_append empty requests [request]
      rw [isLast] at live
      rcases live_or_new_of_serve (balanced_empty.served requests).toWellFormed live with
        liveBefore | ⟨context, rfl, isNew⟩
      · obtain ⟨earlier, context, later, rfl, isNew⟩ := inductionHypothesis liveBefore
        exact ⟨earlier, context, later ++ [request], by simp, isNew⟩
      · exact ⟨requests, context, [], rfl, isNew⟩

/-! ## The whole statement -/

/-- Whatever is asked of an arena, no handle is given out twice.  A handle that was given out and is
not live any more is stale for ever.  And a live handle was given out with a context, whose local
variables are those last stored through the handle, or else those that the context came with, or
else `nil`. -/
theorem handles_never_confused (requests : List Request) :
    let arena := empty.served requests
    (empty.given requests).Nodup ∧
      (∀ id ∈ empty.given requests, arena.isLive id = false → ∀ more : List Request,
        let later := arena.served more
        later.isLive id = false ∧
          ∀ slot value depth, later.load? id slot = none ∧ later.store? id slot value = none ∧
            later.resolve? id (depth + 1) = none) ∧
      ∀ id, arena.isLive id = true → ∃ earlier context later,
        requests = earlier ++ .alloc context :: later ∧
          ((empty.served earlier).alloc context).1 = id ∧
          ∀ slot, arena.load? id slot =
            some ((lastStored? id slot later).getD (context.locals[slot]?.getD .nil)) := by
  intro arena
  have balanced : Balanced arena := balanced_empty.served requests
  refine ⟨nodup_given balanced_empty requests, fun id isGiven freed more => ?_,
    fun id live => ?_⟩
  · have issued : Issued arena id := issued_of_mem_given balanced_empty isGiven
    have stale : (arena.served more).isLive id = false := by
      by_contra alive
      rw [Bool.not_eq_false] at alive
      have aliveBefore := (load?_served balanced issued more alive).1
      rw [freed] at aliveBefore
      cases aliveBefore
    have gone : (arena.served more).get? id = none := by
      simpa [Arena.isLive] using stale
    refine ⟨stale, fun slot value depth => ⟨?_, ?_, ?_⟩⟩
    · simp [Arena.load?, gone]
    · simp [Arena.store?, stale]
    · simp [Arena.resolve?, gone]
  · obtain ⟨earlier, context, later, isWhole, isNew⟩ := exists_alloc_of_isLive live
    refine ⟨earlier, context, later, isWhole, isNew, fun slot => ?_⟩
    have balancedEarlier := balanced_empty.served earlier
    have wellFormed := balancedEarlier.toWellFormed
    have isArena : arena = ((empty.served earlier).alloc context).2.served later := by
      change empty.served requests = _
      rw [isWhole, served_append]
      rfl
    have issued := issued_alloc wellFormed context
    rw [isNew] at issued
    rw [isArena] at live
    have loaded := (load?_served (balancedEarlier.alloc context) issued later live).2 slot
    have found := get?_alloc wellFormed context id
    rw [if_pos isNew.symm] at found
    rw [isArena, loaded, Arena.load?, found]
    cases lastStored? id slot later with
    | none | some _ =>
        rfl

end Arena

end Missive
