import Mathlib.Data.List.Forall2
import Missive.Machine.Machine
import Missive.Proofs.Memory.Contexts
import Missive.Proofs.Memory.Objects
import Missive.Proofs.Safety.Layout

/-!
# Machines that run safe code

What a machine has to keep so that safe code finds what it needs: every block and every method in
the store has safe code, the context of a block has enough contexts around it, and the receiver of
a method of instances is an instance.

All of this is said in a way that a collection cannot spoil.  Nothing is said about a context that
was freed or about an object that has gone away, and because handles and identities are not used
twice, nothing has to be said about them later.
-/

namespace Missive

/-! ## Contexts around a context -/

namespace Arena

/-- The context of the handle has at least so many contexts around it, as far as they have not been
freed. -/
def Nested (arena : Arena) : (depth : Nat) → ContextId → Prop
  | 0, id => arena.Issued id
  | depth + 1, id => arena.Issued id ∧ ∀ context, arena.get? id = some context →
      ∃ outer, context.outer = some outer ∧ arena.Nested depth outer

/-- The second arena came from the first one: contexts may have been added, changed or freed, but
none has got another context around it. -/
structure Keeps (older newer : Arena) : Prop where
  issued : ∀ {id}, older.Issued id → newer.Issued id
  outer : ∀ {id context}, older.Issued id → newer.get? id = some context →
    ∃ before, older.get? id = some before ∧ before.outer = context.outer

theorem Keeps.refl (arena : Arena) : Keeps arena arena :=
  ⟨fun issued => issued, fun _ found => ⟨_, found, rfl⟩⟩

theorem Keeps.trans {first second third : Arena} (earlier : Keeps first second)
    (later : Keeps second third) : Keeps first third := by
  refine ⟨fun issued => later.issued (earlier.issued issued), fun issued found => ?_⟩
  obtain ⟨middle, middleFound, same⟩ := later.outer (earlier.issued issued) found
  obtain ⟨before, beforeFound, sameBefore⟩ := earlier.outer issued middleFound
  exact ⟨before, beforeFound, sameBefore.trans same⟩

/-- The second arena came from the first one: contexts may have been added or freed, but none has
changed. -/
structure Retains (older newer : Arena) : Prop where
  issued : ∀ {id}, older.Issued id → newer.Issued id
  same : ∀ {id context}, older.Issued id → newer.get? id = some context →
    older.get? id = some context

theorem Retains.refl (arena : Arena) : Retains arena arena :=
  ⟨fun issued => issued, fun _ found => found⟩

theorem Retains.trans {first second third : Arena} (earlier : Retains first second)
    (later : Retains second third) : Retains first third :=
  ⟨fun issued => later.issued (earlier.issued issued),
    fun issued found => earlier.same issued (later.same (earlier.issued issued) found)⟩

theorem Retains.keeps {older newer : Arena} (retains : Retains older newer) : Keeps older newer :=
  ⟨retains.issued, fun issued found => ⟨_, retains.same issued found, rfl⟩⟩

theorem Nested.issued {arena : Arena} {depth : Nat} {id : ContextId}
    (nested : arena.Nested depth id) : arena.Issued id := by
  cases depth with
  | zero =>
      exact nested
  | succ depth =>
      exact nested.1

theorem Nested.keeps {older newer : Arena} (keeps : Keeps older newer) {depth : Nat}
    {id : ContextId} (nested : older.Nested depth id) : newer.Nested depth id := by
  induction depth generalizing id with
  | zero =>
      exact keeps.issued nested
  | succ depth inductionHypothesis =>
      obtain ⟨issued, around⟩ := nested
      refine ⟨keeps.issued issued, fun context found => ?_⟩
      obtain ⟨before, foundBefore, sameOuter⟩ := keeps.outer issued found
      obtain ⟨outer, isOuter, outerNested⟩ := around before foundBefore
      exact ⟨outer, sameOuter ▸ isOuter, inductionHypothesis outerNested⟩

theorem Nested.shallower {arena : Arena} {depth less : Nat} {id : ContextId}
    (nested : arena.Nested depth id) (isLess : less ≤ depth) : arena.Nested less id := by
  induction less generalizing depth id with
  | zero =>
      exact nested.issued
  | succ less inductionHypothesis =>
      cases depth with
      | zero =>
          exact (Nat.not_succ_le_zero less isLess).elim
      | succ depth =>
          refine ⟨nested.1, fun context found => ?_⟩
          obtain ⟨outer, isOuter, outerNested⟩ := nested.2 context found
          exact ⟨outer, isOuter, inductionHypothesis outerNested (Nat.le_of_succ_le_succ isLess)⟩

/-- The way outward does not end too early; at most it meets a stale handle. -/
theorem Nested.resolve? {arena : Arena} {depth : Nat} {id : ContextId}
    (nested : arena.Nested depth id) : arena.resolve? id depth ≠ some none := by
  induction depth generalizing id with
  | zero =>
      exact fun impossible => Option.some_ne_none _ (Option.some.inj impossible)
  | succ depth inductionHypothesis =>
      unfold Arena.resolve?
      cases found : arena.get? id with
      | none =>
          exact fun impossible => by cases impossible
      | some context =>
          obtain ⟨outer, isOuter, outerNested⟩ := nested.2 context found
          simp only [Option.bind_eq_bind, Option.bind_some, isOuter]
          exact inductionHypothesis outerNested

variable {arena : Arena}

theorem retains_alloc (wellFormed : WellFormed arena) (context : Context) :
    Retains arena (arena.alloc context).2 := by
  refine ⟨fun issued => issued.alloc wellFormed context, fun {id found} issued isFound => ?_⟩
  have old : id ≠ (arena.alloc context).1 := by
    rintro rfl
    exact not_issued_alloc wellFormed context issued
  rwa [get?_alloc wellFormed, if_neg old] at isFound

theorem keeps_alloc (wellFormed : WellFormed arena) (context : Context) :
    Keeps arena (arena.alloc context).2 :=
  (retains_alloc wellFormed context).keeps

/-- A new context has one more context around it than the one that it was created in. -/
theorem nested_alloc (wellFormed : WellFormed arena) {depth : Nat} {outer : ContextId}
    (nested : arena.Nested depth outer) (locals : Array Value) :
    (arena.alloc ⟨locals, some outer⟩).2.Nested (depth + 1)
      (arena.alloc ⟨locals, some outer⟩).1 := by
  refine ⟨issued_alloc wellFormed _, fun context found => ?_⟩
  rw [get?_alloc_self wellFormed] at found
  cases found
  exact ⟨outer, rfl, nested.keeps (keeps_alloc wellFormed _)⟩

theorem keeps_put {id : ContextId} {live : Context} (isLive : arena.get? id = some live)
    (slot : Nat) (value : Value) : Keeps arena (arena.put id slot value) := by
  refine ⟨fun issued => issued.put id slot value, fun {other found} _ isFound => ?_⟩
  rw [get?_put isLive] at isFound
  split at isFound
  · rename_i same
    cases isFound
    exact ⟨live, same ▸ isLive, rfl⟩
  · exact ⟨found, isFound, rfl⟩

theorem retains_collect (store : Store) (roots : List ContextId) (values : List Value) :
    Retains arena (arena.collect store roots values).2 :=
  ⟨fun issued => issued.collect, fun _ found => get?_of_get?_collect found⟩

end Arena

/-! ## Instances -/

namespace Store

/-- What there was in the first store, and still is, has the same fixed part in the second one. -/
structure Preserves (older newer : Store) : Prop where
  size_le : older.cells.size ≤ newer.cells.size
  same : ∀ {id object}, id.index < older.cells.size → newer.get? id = some object →
    ∃ before, older.get? id = some before ∧ object.cleared = before.cleared

theorem Preserves.refl (store : Store) : Preserves store store :=
  ⟨Nat.le_refl _, fun _ found => ⟨_, found, rfl⟩⟩

theorem Inherits.preserves {older newer : Store} (inherits : older.Inherits newer) :
    Preserves older newer := by
  refine ⟨inherits.size_le, fun {id object} old found => ?_⟩
  rcases inherits.origin id object found with before | ⟨new, _⟩
  · exact before
  · exact (Nat.not_lt_of_le new old).elim

theorem preserves_alloc (store : Store) (object : Object) :
    Preserves store (store.alloc object).2 := by
  refine ⟨by simp, fun {id found} old isFound => ?_⟩
  have notNew : id ≠ ⟨store.cells.size⟩ := by
    rintro rfl
    exact Nat.lt_irrefl _ old
  rw [get?_alloc, if_neg notNew] at isFound
  exact ⟨found, isFound, rfl⟩

/-- The value is an instance, unless it has gone away. -/
def Instance (store : Store) (value : Value) : Prop :=
  ∃ id, value = .ref id ∧ id.index < store.cells.size ∧
    ∀ object, store.get? id = some object → ∃ classId fields, object = .record classId fields

theorem Instance.preserves {older newer : Store} (preserves : Preserves older newer)
    {value : Value} (isInstance : older.Instance value) : newer.Instance value := by
  obtain ⟨id, isRef, old, isRecord⟩ := isInstance
  refine ⟨id, isRef, Nat.lt_of_lt_of_le old preserves.size_le, fun object found => ?_⟩
  obtain ⟨before, foundBefore, same⟩ := preserves.same old found
  obtain ⟨classId, fields, rfl⟩ := isRecord before foundBefore
  cases object with
  | record otherClass otherFields =>
      exact ⟨_, _, rfl⟩
  | array _ | dictionary _ | block _ | classObject _ =>
      cases same

theorem instance_of_see {store : Store} {value : Value} {id classId : ObjectId}
    {fields : List Value} (seen : store.see value = .record id classId fields) :
    store.Instance value := by
  obtain ⟨rfl, found⟩ := of_see_record seen
  refine ⟨id, rfl, index_lt_of_get? found, fun object isFound => ?_⟩
  rw [found] at isFound
  cases isFound
  exact ⟨classId, fields, rfl⟩

end Store

/-! ## Objects -/

/-- The receiver and the class of a running method are what code at the place counts on. -/
structure Stands (store : Store) (setting : Setting) (receiver : Value) (owner : Option ObjectId)
    (classSide : Bool) : Prop where
  owner : setting.side.isSome = true → owner.isSome = true
  classSide : ∀ side, setting.side = some side → classSide = side
  receiver : setting.side = some false → store.Instance receiver

theorem Stands.preserves {older newer : Store} (preserves : older.Preserves newer)
    {setting : Setting} {receiver : Value} {owner : Option ObjectId} {classSide : Bool}
    (stands : Stands older setting receiver owner classSide) :
    Stands newer setting receiver owner classSide :=
  ⟨stands.owner, stands.classSide,
    fun inInstance => (stands.receiver inInstance).preserves preserves⟩

/-- The code in the object can run wherever the machine may run it. -/
inductive Object.Typed (store : Store) (contexts : Arena) : Object → Prop
  | plain {object : Object} : object.isPlain = true → Typed store contexts object
  | block {closure : Closure} {setting : Setting} : closure.body.Safe setting.inside →
      contexts.Nested setting.depth closure.outer →
      Stands store setting closure.receiver closure.owner closure.classSide →
      Typed store contexts (.block closure)
  | classObject {definition : ClassObject} :
      (∀ method ∈ definition.methods, method.body.Safe (.method false)) →
      (∀ method ∈ definition.classMethods, method.body.Safe (.method true)) →
      Typed store contexts (.classObject definition)

namespace Object

variable {store newer : Store} {contexts later : Arena} {object : Object}

theorem Typed.preserves (typed : object.Typed store contexts) (preserves : store.Preserves newer)
    (keeps : contexts.Keeps later) : object.Typed newer later := by
  cases typed with
  | plain isPlain =>
      exact .plain isPlain
  | block safe nested stands =>
      exact .block safe (nested.keeps keeps) (stands.preserves preserves)
  | classObject safe safeClassSide =>
      exact .classObject safe safeClassSide

/-- Only the fixed part of an object matters. -/
theorem Typed.of_cleared {before : Object} (typed : before.Typed store contexts)
    (same : object.cleared = before.cleared) : object.Typed store contexts := by
  cases typed with
  | plain isPlain =>
      refine .plain ?_
      rw [← isPlain_cleared, same, isPlain_cleared]
      exact isPlain
  | block safe nested stands =>
      obtain rfl := eq_block_of_cleared same
      exact .block safe nested stands
  | classObject safe safeClassSide =>
      cases object with
      | classObject definition =>
          injection same with sameDefinition
          injection sameDefinition with _ _ _ sameMethods sameClassMethods _
          exact .classObject (sameMethods ▸ safe) (sameClassMethods ▸ safeClassSide)
      | array _ | dictionary _ | block _ | record _ _ =>
          cases same

end Object

/-- The objects of a store with the contexts around their blocks. -/
structure Heap (store : Store) (contexts : Arena) : Prop where
  wellFormed : contexts.WellFormed
  objects : ∀ {id object}, store.get? id = some object → object.Typed store contexts

namespace Heap

variable {store newer : Store} {contexts later : Arena}

theorem inherits (heap : Heap store contexts) (inherits : store.Inherits newer) :
    Heap newer contexts := by
  refine ⟨heap.wellFormed, fun {id object} found => ?_⟩
  rcases inherits.origin id object found with ⟨before, foundBefore, same⟩ | ⟨_, isPlain⟩
  · exact ((heap.objects foundBefore).of_cleared same).preserves inherits.preserves (.refl _)
  · exact .plain isPlain

theorem alloc (heap : Heap store contexts) {object : Object}
    (typed : object.Typed store contexts) : Heap (store.alloc object).2 contexts := by
  refine ⟨heap.wellFormed, fun {id found} isFound => ?_⟩
  rw [Store.get?_alloc] at isFound
  have preserves := store.preserves_alloc object
  split at isFound
  · cases isFound
    exact typed.preserves preserves (.refl _)
  · exact (heap.objects isFound).preserves preserves (.refl _)

theorem keeps (heap : Heap store contexts) (keeps : contexts.Keeps later)
    (wellFormed : later.WellFormed) : Heap store later :=
  ⟨wellFormed, fun found => (heap.objects found).preserves (.refl _) keeps⟩

end Heap

/-! ## Activations -/

/-- The activation runs safe code at the place, its stack is laid out as said, and the code to come
goes on from the expected layout. -/
structure Frame.Typed (store : Store) (contexts : Arena) (setting : Setting)
    (expected held : Layout) (frame : Frame) : Prop where
  safe : frame.code.Safe setting
  flows : Flows setting frame.code.constants (frame.code.code.toList.drop frame.ip) expected []
  stack : List.Forall₂ (fun isReceiver value => isReceiver = true → value = frame.receiver) held
    frame.stack
  context : contexts.Nested setting.depth frame.context
  stands : Stands store setting frame.receiver frame.owner frame.classSide

/-- The activation can go on. -/
def Frame.Ready (store : Store) (contexts : Arena) (frame : Frame) : Prop :=
  ∃ setting layout, frame.Typed store contexts setting layout layout

/-- The activation can go on once it gets one more operand. -/
def Frame.Awaits (store : Store) (contexts : Arena) (frame : Frame) : Prop :=
  ∃ setting layout, frame.Typed store contexts setting (false :: layout) layout

section Frames

variable {store newer : Store} {contexts later : Arena} {frame : Frame}

theorem Frame.Typed.preserves {setting : Setting} {expected held : Layout}
    (typed : frame.Typed store contexts setting expected held) (preserves : store.Preserves newer)
    (keeps : contexts.Keeps later) : frame.Typed newer later setting expected held :=
  ⟨typed.safe, typed.flows, typed.stack, typed.context.keeps keeps,
    typed.stands.preserves preserves⟩

theorem Frame.Awaits.preserves (awaits : frame.Awaits store contexts)
    (preserves : store.Preserves newer) (keeps : contexts.Keeps later) :
    frame.Awaits newer later := by
  obtain ⟨setting, layout, typed⟩ := awaits
  exact ⟨setting, layout, typed.preserves preserves keeps⟩

/-- One more operand on the stack. -/
theorem Frame.Typed.push {setting : Setting} {expected held : Layout}
    (typed : frame.Typed store contexts setting expected held) {top : Bool} {value : Value}
    (isReceiver : top = true → value = frame.receiver) :
    Frame.Typed store contexts setting expected (top :: held)
      { frame with stack := value :: frame.stack } :=
  ⟨typed.safe, typed.flows, .cons isReceiver typed.stack, typed.context, typed.stands⟩

/-- A new activation of safe code. -/
theorem Frame.ready_of_start {setting : Setting} (safe : frame.code.Safe setting)
    (atStart : frame.ip = 0) (noOperands : frame.stack = [])
    (nested : contexts.Nested setting.depth frame.context)
    (stands : Stands store setting frame.receiver frame.owner frame.classSide) :
    frame.Ready store contexts := by
  refine ⟨setting, [], safe, ?_, ?_, nested, stands⟩
  · rw [atStart, List.drop_zero]
    cases safe with
    | intro flows _ =>
        exact flows
  · rw [noOperands]
    exact .nil

end Frames

/-! ## Machines -/

namespace Machine

/-- What is kept even where a program fails. -/
structure Kept (machine : Machine) : Prop where
  heap : Heap machine.store machine.contexts
  session : machine.contexts.Issued machine.sessionContext

/-- Every activation waits for one more operand. -/
structure Awaiting (machine : Machine) : Prop extends Kept machine where
  frames : ∀ frame ∈ machine.frames, frame.Awaits machine.store machine.contexts

/-- The innermost activation is at the given point, and all others wait for it. -/
structure Poised (machine : Machine) (current : Frame) (setting : Setting)
    (expected held : Layout) : Prop extends Kept machine where
  frames : ∃ rest, machine.frames = current :: rest ∧
    ∀ frame ∈ rest, frame.Awaits machine.store machine.contexts
  current : current.Typed machine.store machine.contexts setting expected held

/-- The machine can take the next step. -/
def Ready (machine : Machine) : Prop :=
  ∃ current setting layout, machine.Poised current setting layout layout

theorem Ready.poised {machine : Machine} {current : Frame} {rest : List Frame}
    (ready : machine.Ready) (frames : machine.frames = current :: rest) :
    ∃ setting layout, machine.Poised current setting layout layout := by
  obtain ⟨_, setting, layout, poised⟩ := ready
  obtain ⟨_, sameFrames, _⟩ := poised.frames
  rw [frames] at sameFrames
  cases sameFrames
  exact ⟨setting, layout, poised⟩

end Machine

end Missive
