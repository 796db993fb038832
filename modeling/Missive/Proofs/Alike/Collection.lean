import Missive.Proofs.Alike.Execution
import Missive.Proofs.Memory.Contexts
import Missive.Proofs.Memory.Objects

/-!
# Collections keep machines linked

Everything that a machine holds on to can be reached from its roots, so a link may be restricted
to what can be reached.  A collection of contexts frees only what cannot be reached, and a
collection of objects leaves every object as it is that can be reached.  After a collection on one
side the machines are therefore still linked.
-/

namespace Missive

namespace Machine

/-- The node can be reached from the roots of the machine. -/
def Reaches (machine : Machine) (node : Node) : Prop :=
  machine.contexts.Reached machine.store machine.rootContexts machine.rootValues node

variable {machine : Machine}

theorem mem_outsideReferences_of_rootValue {value : Value} {id : ObjectId}
    (root : value ∈ machine.rootValues) (reference : id ∈ value.references) :
    id ∈ machine.outsideReferences :=
  List.mem_flatMap.mpr ⟨value, List.mem_append_left _ root, reference⟩

theorem mem_outsideReferences_of_local {contextId : ContextId} {context : Context} {value : Value}
    {id : ObjectId} (found : machine.contexts.get? contextId = some context)
    (isLocal : value ∈ context.locals.toList) (reference : id ∈ value.references) :
    id ∈ machine.outsideReferences := by
  have atPlace := Arena.get?_eq_some_iff.mp found
  refine List.mem_flatMap.mpr ⟨value, List.mem_append_right _ ?_, reference⟩
  exact List.mem_flatMap.mpr
    ⟨_, Array.mem_toList_iff.mpr (Array.mem_of_getElem? atPlace), isLocal⟩

/-- What can be reached is held by the references from outside the store. -/
theorem Reaches.held {id : ObjectId} (reached : machine.Reaches (.object id)) :
    machine.store.Held machine.outsideReferences id := by
  obtain ⟨root, isRoot, way⟩ := reached
  -- On the way contexts and objects take turns; only the objects are held.
  have heldOnWay : ∀ node, Leads (Node.successors machine.contexts machine.store) root node →
      ∀ other, node = .object other → machine.store.Held machine.outsideReferences other := by
    intro node toNode
    induction toNode with
    | refl =>
        rintro other rfl
        obtain ⟨member, present⟩ := List.mem_filter.mp isRoot
        rcases List.mem_append.mp member with isHandle | inValues
        · obtain ⟨_, _, impossible⟩ := List.mem_map.mp isHandle
          cases impossible
        · obtain ⟨reference, isReference, same⟩ := List.mem_map.mp inValues
          cases same
          obtain ⟨value, isValue, inValue⟩ := List.mem_flatMap.mp isReference
          exact Store.Held.of_mem (mem_outsideReferences_of_rootValue isValue inValue) present
    | @tail node next _ isNext inductionHypothesis =>
        rintro other rfl
        obtain ⟨member, present⟩ := List.mem_filter.mp isNext
        cases node with
        | context contextId =>
            dsimp only at member
            split at member
            · rename_i context found
              rcases List.mem_append.mp member with isOuter | inLocals
              · obtain ⟨_, _, impossible⟩ := List.mem_map.mp isOuter
                cases impossible
              · obtain ⟨reference, isReference, same⟩ := List.mem_map.mp inLocals
                cases same
                obtain ⟨value, isLocal, inValue⟩ := List.mem_flatMap.mp isReference
                exact Store.Held.of_mem (mem_outsideReferences_of_local found isLocal inValue)
                  present
            · exact (List.not_mem_nil member).elim
        | object holder =>
            dsimp only at member
            split at member
            · rename_i object found
              rcases List.mem_append.mp member with isContext | inReferences
              · obtain ⟨_, _, impossible⟩ := List.mem_map.mp isContext
                cases impossible
              · obtain ⟨reference, isReference, same⟩ := List.mem_map.mp inReferences
                cases same
                exact (inductionHypothesis holder rfl).step found isReference present
            · exact (List.not_mem_nil member).elim
  exact heldOnWay _ way id rfl

end Machine

namespace Link

variable {link : Link} {left right : Machine}

/-! ## Restricted links -/

/-- The part of a link that is in use on the left. -/
def restrict (link : Link) (used : Node → Prop) : Link where
  objects id fixedLeft fixedRight := link.objects id fixedLeft fixedRight ∧ used (.object id)
  contexts leftId rightId := link.contexts leftId rightId ∧ used (.context leftId)
  pairing := link.pairing

variable {used : Node → Prop}

theorem has_restrict {id : ObjectId} (has : link.Has id) (isUsed : used (.object id)) :
    (link.restrict used).Has id := by
  obtain ⟨fixedLeft, fixedRight, linked⟩ := has
  exact ⟨fixedLeft, fixedRight, linked, isUsed⟩

theorem knows_restrict {value : Value} (known : link.Knows value)
    (isUsed : ∀ id ∈ value.references, used (.object id)) : (link.restrict used).Knows value :=
  fun id member => has_restrict (known id member) (isUsed id member)

theorem allKnown_restrict {values : List Value} (known : ∀ value ∈ values, link.Knows value)
    (isUsed : ∀ value ∈ values, ∀ id ∈ value.references, used (.object id)) :
    ∀ value ∈ values, (link.restrict used).Knows value :=
  fun value member => knows_restrict (known value member) (isUsed value member)

theorem Blocks.restrict {leftBlock rightBlock : BlockRef}
    (blocks : link.Blocks leftBlock rightBlock)
    (isUsed : ∀ id ∈ leftBlock.value.references, used (.object id)) :
    (link.restrict used).Blocks leftBlock rightBlock :=
  ⟨blocks.id, blocks.fixed, isUsed leftBlock.id List.mem_cons_self⟩

/-- A loop needs nothing but the values that it holds on to. -/
theorem Loops.restrict {leftLoop rightLoop : Iteration} (loops : link.Loops leftLoop rightLoop)
    (isUsed : ∀ value ∈ leftLoop.values, ∀ id ∈ value.references, used (.object id)) :
    (link.restrict used).Loops leftLoop rightLoop := by
  cases loops with
  | whileAlone goOn inBody condition =>
      exact .whileAlone goOn inBody (condition.restrict (isUsed _ List.mem_cons_self))
  | whileLoop goOn inBody condition body =>
      exact .whileLoop goOn inBody (condition.restrict (isUsed _ List.mem_cons_self))
        (body.restrict (isUsed _ (List.mem_cons_of_mem _ List.mem_cons_self)))
  | forever body =>
      exact .forever (body.restrict (isUsed _ List.mem_cons_self))
  | times remaining body receiver =>
      exact .times remaining (body.restrict (isUsed _ List.mem_cons_self))
        (knows_restrict receiver (isUsed _ (by simp [Iteration.values])))
  | count counter body receiver =>
      exact .count counter (body.restrict (isUsed _ List.mem_cons_self))
        (knows_restrict receiver (isUsed _ (by simp [Iteration.values])))
  | each body items receiver =>
      exact .each (body.restrict (isUsed _ List.mem_cons_self))
        (allKnown_restrict items fun _ member => isUsed _ (by simp [Iteration.values, member]))
        (knows_restrict receiver (isUsed _ (by simp [Iteration.values])))
  | @eachPair _ _ walk _ body items receiver =>
      refine .eachPair (body.restrict (isUsed _ List.mem_cons_self)) (fun pair member => ?_)
        (knows_restrict receiver (isUsed _ (by simp [Iteration.values])))
      have inValues : ∀ value ∈ [pair.1, pair.2],
          value ∈ walk.items.flatMap fun pair => [pair.1, pair.2] :=
        fun value inPair => List.mem_flatMap.mpr ⟨pair, member, inPair⟩
      exact ⟨knows_restrict (items pair member).1 (isUsed _ (List.mem_cons_of_mem _
          (List.mem_cons_of_mem _ (inValues _ List.mem_cons_self)))),
        knows_restrict (items pair member).2 (isUsed _ (List.mem_cons_of_mem _
          (List.mem_cons_of_mem _ (inValues _ (List.mem_cons_of_mem _ List.mem_cons_self)))))⟩
  | collect body items results =>
      exact .collect (body.restrict (isUsed _ List.mem_cons_self))
        (allKnown_restrict items fun _ member => isUsed _ (by simp [Iteration.values, member]))
        (allKnown_restrict results fun _ member => isUsed _ (by simp [Iteration.values, member]))
  | filter keep body items results =>
      exact .filter keep (body.restrict (isUsed _ List.mem_cons_self))
        (allKnown_restrict items fun _ member => isUsed _ (by simp [Iteration.values, member]))
        (allKnown_restrict results fun _ member => isUsed _ (by simp [Iteration.values, member]))
  | fold body items accumulator =>
      exact .fold (body.restrict (isUsed _ List.mem_cons_self))
        (allKnown_restrict items fun _ member => isUsed _ (by simp [Iteration.values, member]))
        (knows_restrict accumulator (isUsed _ (by simp [Iteration.values])))
  | detect body items fallback =>
      exact .detect (body.restrict (isUsed _ List.mem_cons_self))
        (allKnown_restrict items fun _ member => isUsed _ (by simp [Iteration.values, member]))
        (fun value member =>
          knows_restrict (fallback value member)
            (isUsed _ (by simp [Iteration.values, Option.mem_def.mp member])))

theorem Frames.restrict {leftFrame rightFrame : Frame} (frames : link.Frames leftFrame rightFrame)
    (isUsed : ∀ value ∈ leftFrame.values, ∀ id ∈ value.references, used (.object id))
    (contextUsed : used (.context leftFrame.context)) :
    (link.restrict used).Frames leftFrame rightFrame where
  same := frames.same
  number := frames.number
  stands := frames.stands
  stack value member := by
    refine knows_restrict (frames.stack value member) (isUsed value ?_)
    simp [Frame.values, member]
  context := ⟨frames.context, contextUsed⟩
  receiver := knows_restrict frames.receiver (isUsed _ (by simp [Frame.values]))
  owner id member := by
    refine has_restrict (frames.owner id member) (isUsed (.ref id) ?_ id List.mem_cons_self)
    simp [Frame.values, Option.mem_def.mp member]
  loop := by
    have pending := frames.loop
    have loopUsed : ∀ iteration ∈ leftFrame.loop, ∀ value ∈ iteration.values,
        ∀ id ∈ value.references, used (.object id) := by
      intro iteration isLoop value member
      apply isUsed value
      simp [Frame.values, Option.mem_def.mp isLoop, member]
    generalize leftFrame.loop = leftLoop, rightFrame.loop = rightLoop at pending loopUsed ⊢
    cases pending with
    | none =>
        exact .none
    | some loops =>
        exact .some (loops.restrict (loopUsed _ rfl))

/-! ## Values that are held on to -/

theorem Blocks.known {leftBlock rightBlock : BlockRef} (blocks : link.Blocks leftBlock rightBlock) :
    link.Knows leftBlock.value :=
  knows_ref.mpr ⟨_, _, blocks.fixed⟩

theorem Loops.known {leftLoop rightLoop : Iteration} (loops : link.Loops leftLoop rightLoop) :
    ∀ value ∈ leftLoop.values, link.Knows value := by
  cases loops with
  | whileAlone goOn inBody condition =>
      exact oneKnown condition.known
  | whileLoop goOn inBody condition body =>
      exact twoKnown condition.known body.known
  | forever body =>
      exact oneKnown body.known
  | times remaining body receiver =>
      exact twoKnown body.known receiver
  | count counter body receiver =>
      exact twoKnown body.known receiver
  | each body items receiver =>
      exact List.forall_mem_cons.mpr ⟨body.known, List.forall_mem_cons.mpr ⟨receiver, items⟩⟩
  | eachPair body items receiver =>
      refine List.forall_mem_cons.mpr ⟨body.known, List.forall_mem_cons.mpr ⟨receiver, ?_⟩⟩
      intro value member
      obtain ⟨pair, pairMember, inPair⟩ := List.mem_flatMap.mp member
      exact twoKnown (items pair pairMember).1 (items pair pairMember).2 value inPair
  | collect body items results =>
      exact List.forall_mem_append.mpr
        ⟨List.forall_mem_cons.mpr ⟨body.known, items⟩, results⟩
  | filter keep body items results =>
      exact List.forall_mem_append.mpr
        ⟨List.forall_mem_cons.mpr ⟨body.known, items⟩, results⟩
  | fold body items accumulator =>
      exact List.forall_mem_cons.mpr ⟨body.known, List.forall_mem_cons.mpr ⟨accumulator, items⟩⟩
  | detect body items fallback =>
      exact List.forall_mem_append.mpr ⟨List.forall_mem_cons.mpr ⟨body.known, items⟩,
        fun value member => fallback value (Option.mem_toList.mp member)⟩

theorem Frames.known {leftFrame rightFrame : Frame} (frames : link.Frames leftFrame rightFrame) :
    ∀ value ∈ leftFrame.values, link.Knows value := by
  have pendingKnown : ∀ iteration ∈ leftFrame.loop, ∀ value ∈ iteration.values,
      link.Knows value := by
    have pending := frames.loop
    generalize leftFrame.loop = leftLoop, rightFrame.loop = rightLoop at pending ⊢
    cases pending with
    | none =>
        exact fun _ impossible => (Option.not_mem_none _ impossible).elim
    | some loops =>
        exact fun _ isLoop => Option.some.inj isLoop ▸ loops.known
  intro value member
  unfold Frame.values at member
  rcases List.mem_append.mp member with own | inLoop
  · rcases List.mem_append.mp own with inStack | inRest
    · exact frames.stack value inStack
    · rcases List.mem_cons.mp inRest with rfl | isOwner
      · exact frames.receiver
      · obtain ⟨id, isId, rfl⟩ := List.mem_map.mp isOwner
        exact knows_ref.mpr (frames.owner id (Option.mem_toList.mp isId))
  · split at inLoop
    · rename_i iteration isLoop
      exact pendingKnown iteration isLoop value inLoop
    · exact (List.not_mem_nil inLoop).elim

/-! ## What a machine reaches -/

section Reaches

variable (machines : link.Machines left right)
include machines

theorem Machines.present {id : ObjectId} (has : link.Has id) :
    (left.store.get? id).isSome = true := by
  obtain ⟨object, _, found, _⟩ := machines.stores.get has
  rw [found]
  rfl

theorem Machines.reaches_of_rootValue {value : Value} (root : value ∈ left.rootValues)
    (known : link.Knows value) : ∀ id ∈ value.references, left.Reaches (.object id) :=
  fun id member => Arena.reached_of_value root member (machines.present (known id member))

theorem Machines.reaches_of_rootContext {leftId rightId : ContextId}
    (root : leftId ∈ left.rootContexts) (linked : link.contexts leftId rightId) :
    left.Reaches (.context leftId) :=
  Arena.reached_of_handle root (machines.arenas.isLive linked).1

theorem Machines.stores_restrict :
    (link.restrict left.Reaches).Stores left.store right.store := by
  refine ⟨machines.stores.size, fun linked => ?_⟩
  obtain ⟨isLinked, reached⟩ := linked
  obtain ⟨leftObject, rightObject, leftFound, rightFound, leftFixed, rightFixed, objects⟩ :=
    machines.stores.linked isLinked
  refine ⟨leftObject, rightObject, leftFound, rightFound, leftFixed, rightFixed, ?_⟩
  have referenced : ∀ reference ∈ leftObject.references, link.Has reference →
      (link.restrict left.Reaches).Has reference := fun reference member has =>
    has_restrict has (reached.reference leftFound member (machines.present has))
  cases objects with
  | @block leftClosure rightClosure closures =>
      refine .block ⟨closures.same, closures.home, ⟨closures.outer, ?_⟩, fun id member => ?_,
        fun id member => ?_⟩
      · exact reached.blockContext leftFound (List.mem_singleton.mpr rfl)
          (machines.arenas.isLive closures.outer).1
      · exact referenced id (List.mem_append_left _ member) (closures.receiver id member)
      · exact referenced id (List.mem_append_right _ (Option.mem_toList.mpr member))
          (closures.owner id member)
  | other contextFree references =>
      exact .other contextFree fun id member => referenced id member (references id member)

theorem Machines.arenas_restrict :
    (link.restrict left.Reaches).Arenas left.contexts right.contexts where
  leftWellFormed := machines.arenas.leftWellFormed
  rightWellFormed := machines.arenas.rightWellFormed
  leftUnique first second := machines.arenas.leftUnique first.1 second.1
  rightUnique first second := machines.arenas.rightUnique first.1 second.1
  linked := by
    rintro leftId rightId ⟨isLinked, reached⟩
    obtain ⟨leftContext, rightContext, leftFound, rightFound, contexts⟩ :=
      machines.arenas.linked isLinked
    refine ⟨leftContext, rightContext, leftFound, rightFound, contexts.locals, ?_, ?_⟩
    · intro value isLocal
      apply knows_restrict (contexts.known value isLocal)
      intro id member
      exact reached.localReference leftFound isLocal member
        (machines.present (contexts.known value isLocal id member))
    · have outers := contexts.outers
      have outerReached : ∀ outer, leftContext.outer = some outer →
          left.contexts.isLive outer = true → left.Reaches (.context outer) :=
        fun outer isOuter live => reached.outer leftFound isOuter live
      generalize leftContext.outer = leftOuter, rightContext.outer = rightOuter
        at outers outerReached ⊢
      cases outers with
      | none =>
          exact .none
      | some linked =>
          exact .some ⟨linked, outerReached _ rfl (machines.arenas.isLive linked).1⟩

/-- A link may be restricted to what the left machine reaches. -/
theorem Machines.restrict : (link.restrict left.Reaches).Machines left right := by
  refine { machines with
    stores := machines.stores_restrict
    arenas := machines.arenas_restrict
    globalValues := fun value member => ?_
    sessionContext := ⟨machines.sessionContext, ?_⟩
    frames := ?_
    resultValue := fun value member => ?_ }
  · refine knows_restrict (machines.globalValues value member)
      (machines.reaches_of_rootValue ?_ (machines.globalValues value member))
    exact List.mem_append_left _ (List.mem_append_right _ member)
  · exact machines.reaches_of_rootContext List.mem_cons_self machines.sessionContext
  · have restricted : ∀ {leftFrames rightFrames : List Frame},
        List.Forall₂ link.Frames leftFrames rightFrames →
        (∀ frame ∈ leftFrames, frame ∈ left.frames) →
        List.Forall₂ (link.restrict left.Reaches).Frames leftFrames rightFrames := by
      intro leftFrames rightFrames frames inside
      induction frames with
      | nil =>
          exact .nil
      | cons innermost below inductionHypothesis =>
          obtain ⟨isFrame, insideBelow⟩ := List.forall_mem_cons.mp inside
          refine .cons (innermost.restrict (fun value member => ?_) ?_)
            (inductionHypothesis insideBelow)
          · refine machines.reaches_of_rootValue ?_ (innermost.known value member)
            exact List.mem_append_left _ (List.mem_append_left _
              (List.mem_flatMap.mpr ⟨_, isFrame, member⟩))
          · exact machines.reaches_of_rootContext
              (List.mem_cons_of_mem _ (List.mem_map_of_mem isFrame)) innermost.context
    exact restricted machines.frames fun _ member => member
  · refine knows_restrict (machines.resultValue value member)
      (machines.reaches_of_rootValue ?_ (machines.resultValue value member))
    exact List.mem_append_right _ (Option.mem_toList.mpr member)

/-! ## Collections on the left -/

theorem Machines.collectContexts :
    ∃ later : Link, later.pairing = link.pairing ∧ later.Machines left.collectContexts right := by
  refine ⟨link.restrict left.Reaches, rfl, { machines.restrict with arenas := ?_ }⟩
  have arenas := machines.arenas_restrict
  refine { arenas with leftWellFormed := arenas.leftWellFormed.collect, linked := ?_ }
  rintro leftId rightId ⟨isLinked, reached⟩
  obtain ⟨leftContext, rightContext, leftFound, related⟩ := arenas.linked ⟨isLinked, reached⟩
  refine ⟨leftContext, rightContext, ?_, related⟩
  exact ((Arena.get?_collect leftId).trans (if_pos reached)).trans leftFound

theorem Machines.collectObjects :
    ∃ later : Link, later.pairing = link.pairing ∧ later.Machines left.collectObjects right := by
  refine ⟨link.restrict left.Reaches, rfl, { machines.restrict with stores := ?_ }⟩
  have stores := machines.stores_restrict
  refine ⟨?_, ?_⟩
  · exact (Store.size_collect _ _).trans stores.size
  · rintro id fixedLeft fixedRight ⟨isLinked, reached⟩
    obtain ⟨leftObject, rightObject, leftFound, related⟩ := stores.linked ⟨isLinked, reached⟩
    exact ⟨leftObject, rightObject, (Store.get?_collect_of_held reached.held).trans leftFound,
      related⟩

end Reaches

/-! ## The other direction -/

/-- The link seen from the other side. -/
def flip (link : Link) : Link where
  objects id fixedLeft fixedRight := link.objects id fixedRight fixedLeft
  contexts leftId rightId := link.contexts rightId leftId
  pairing := link.pairing.flip

theorem has_flip {id : ObjectId} (has : link.Has id) : link.flip.Has id := by
  obtain ⟨fixedLeft, fixedRight, linked⟩ := has
  exact ⟨fixedRight, fixedLeft, linked⟩

theorem knows_flip {value : Value} (known : link.Knows value) : link.flip.Knows value :=
  fun id member => has_flip (known id member)

theorem allKnown_flip {values : List Value} (known : ∀ value ∈ values, link.Knows value) :
    ∀ value ∈ values, link.flip.Knows value :=
  fun value member => knows_flip (known value member)

theorem Objects.flip {leftObject rightObject : Object}
    (objects : link.Objects leftObject rightObject) : link.flip.Objects rightObject leftObject := by
  cases objects with
  | @block leftClosure rightClosure closures =>
      obtain ⟨outer, home, rfl⟩ : ∃ outer home,
          rightClosure = { leftClosure with outer := outer, home := home } :=
        ⟨_, _, closures.same⟩
      exact .block ⟨rfl, closures.home.flip, closures.outer, knows_flip closures.receiver,
        fun id member => has_flip (closures.owner id member)⟩
  | other contextFree references =>
      exact .other contextFree fun id member => has_flip (references id member)

theorem Stores.flip {leftStore rightStore : Store} (stores : link.Stores leftStore rightStore) :
    link.flip.Stores rightStore leftStore := by
  refine ⟨stores.size.symm, fun linked => ?_⟩
  obtain ⟨leftObject, rightObject, leftFound, rightFound, leftFixed, rightFixed, objects⟩ :=
    stores.linked linked
  exact ⟨rightObject, leftObject, rightFound, leftFound, rightFixed, leftFixed, objects.flip⟩

theorem Arenas.flip {leftArena rightArena : Arena} (arenas : link.Arenas leftArena rightArena) :
    link.flip.Arenas rightArena leftArena where
  leftWellFormed := arenas.rightWellFormed
  rightWellFormed := arenas.leftWellFormed
  leftUnique first second := arenas.rightUnique first second
  rightUnique first second := arenas.leftUnique first second
  linked := by
    intro leftId rightId linked
    obtain ⟨leftContext, rightContext, leftFound, rightFound, contexts⟩ := arenas.linked linked
    refine ⟨rightContext, leftContext, rightFound, leftFound, contexts.locals.symm, ?_, ?_⟩
    · intro value member
      exact knows_flip (contexts.known value (contexts.locals ▸ member))
    · have outers := contexts.outers
      generalize leftContext.outer = leftOuter, rightContext.outer = rightOuter at outers ⊢
      cases outers with
      | none =>
          exact .none
      | some linked =>
          exact .some linked

theorem Blocks.flip {leftBlock rightBlock : BlockRef} (blocks : link.Blocks leftBlock rightBlock) :
    link.flip.Blocks rightBlock leftBlock :=
  ⟨blocks.id.symm, blocks.id ▸ blocks.fixed⟩

theorem Loops.flip {leftLoop rightLoop : Iteration} (loops : link.Loops leftLoop rightLoop) :
    link.flip.Loops rightLoop leftLoop := by
  cases loops with
  | whileAlone goOn inBody condition =>
      exact .whileAlone goOn inBody condition.flip
  | whileLoop goOn inBody condition body =>
      exact .whileLoop goOn inBody condition.flip body.flip
  | forever body =>
      exact .forever body.flip
  | times remaining body receiver =>
      exact .times remaining body.flip (knows_flip receiver)
  | count counter body receiver =>
      exact .count counter body.flip (knows_flip receiver)
  | each body items receiver =>
      exact .each body.flip (allKnown_flip items) (knows_flip receiver)
  | eachPair body items receiver =>
      exact .eachPair body.flip (fun pair member =>
        ⟨knows_flip (items pair member).1, knows_flip (items pair member).2⟩) (knows_flip receiver)
  | collect body items results =>
      exact .collect body.flip (allKnown_flip items) (allKnown_flip results)
  | filter keep body items results =>
      exact .filter keep body.flip (allKnown_flip items) (allKnown_flip results)
  | fold body items accumulator =>
      exact .fold body.flip (allKnown_flip items) (knows_flip accumulator)
  | detect body items fallback =>
      exact .detect body.flip (allKnown_flip items)
        fun value member => knows_flip (fallback value member)

theorem Frames.flip {leftFrame rightFrame : Frame} (frames : link.Frames leftFrame rightFrame) :
    link.flip.Frames rightFrame leftFrame := by
  have pending := frames.loop
  obtain ⟨id, home, code, ip, context, loop, rfl⟩ := frames.shape
  refine ⟨rfl, fun paired => (frames.number paired).symm, frames.stands.flip rfl,
    allKnown_flip frames.stack, frames.context, knows_flip frames.receiver,
    fun id member => has_flip (frames.owner id member), ?_⟩
  generalize leftFrame.loop = leftLoop at pending ⊢
  cases pending with
  | none =>
      exact .none
  | some loops =>
      exact .some loops.flip

theorem Machines.flip (machines : link.Machines left right) : link.flip.Machines right left where
  stores := machines.stores.flip
  arenas := machines.arenas.flip
  frames := (List.Forall₂.flip machines.frames).imp fun _ _ frames => frames.flip
  globals := machines.globals.symm
  globalValues := machines.globals ▸ allKnown_flip machines.globalValues
  sessionContext := machines.sessionContext
  numbers := machines.numbers
  steps inStep := (machines.steps inStep).symm
  unlimited := machines.unlimited.imp_right (machines.maxSteps.symm.trans ·)
  result := machines.result.symm
  resultValue value member := knows_flip (machines.resultValue value (machines.result ▸ member))
  output := machines.output.symm
  maxFrames := machines.maxFrames.symm
  maxSteps := machines.maxSteps.symm
  maxStackDepth := machines.maxStackDepth.symm

end Link

end Missive
