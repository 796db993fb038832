import Missive.Machine.Iteration
import Missive.Proofs.Alike.Stores
import Missive.Protocol.Arguments

/-!
# Computations that agree

Two computations agree from linked states when both succeed, in linked states and with linked
answers, or both fail for the same cause, again in linked states.  The link may have grown by the
objects that were created.

Built-in messages never find fault with the machine itself: what they raise is a fault of the
program.
-/

namespace Missive

/-- The cause is not a fault of a program that was compiled, but of the code or the machine that
runs it. -/
def Cause.isInternal : Cause → Bool
  | .stackUnderflow | .invalidOperand .. | .noEnclosingClass _ | .notAnInstance _
  | .staleContext | .noProgram => true
  | _ => false

/-- The operand of an instruction asks for something that is not there. -/
def Cause.isOfOperand : Cause → Bool
  | .invalidOperand .. | .fieldOutOfRange .. | .undefinedClassVariable _ => true
  | _ => false

/-- The program needs more than the machine is allowed to give it. -/
def Cause.isOfLimit : Cause → Bool
  | .stackOverflow _ | .callDepthExceeded _ | .stepLimitExceeded _ => true
  | _ => false

/-- The cause is one for which a built-in message can fail. -/
def Cause.isOfMessage (cause : Cause) : Bool :=
  !(cause.isInternal || cause.isOfOperand || cause.isOfLimit)

theorem Cause.isOfMessage_iff {cause : Cause} :
    cause.isOfMessage = true ↔
      cause.isInternal = false ∧ cause.isOfOperand = false ∧ cause.isOfLimit = false := by
  simp [isOfMessage, and_assoc]

/-! ## Agreement -/

/-- Two results that correspond, with links to the states reached and the answers given. -/
inductive Agreement {σ α β : Type} (reached : Link → σ → σ → Prop) (allowed : Cause → Prop)
    (answers : Link → α → β → Prop) :
    EStateM.Result Cause σ α → EStateM.Result Cause σ β → Prop
  | ok {link : Link} {left right : σ} {leftAnswer : α} {rightAnswer : β} :
      reached link left right → answers link leftAnswer rightAnswer →
      Agreement reached allowed answers (.ok leftAnswer left) (.ok rightAnswer right)
  | error {link : Link} {left right : σ} {cause : Cause} : reached link left right →
      allowed cause → Agreement reached allowed answers (.error cause left) (.error cause right)

/-- What follows may depend on the states reached. -/
theorem Agreement.bind_of_ok {σ α β γ δ : Type} {reached reachedLater : Link → σ → σ → Prop}
    {allowed : Cause → Prop} {answers : Link → α → β → Prop} {answersLater : Link → γ → δ → Prop}
    {x : EStateM Cause σ α} {y : EStateM Cause σ β} {f : α → EStateM Cause σ γ}
    {g : β → EStateM Cause σ δ} {left right : σ}
    (first : Agreement reached allowed answers (x left) (y right))
    (failed : ∀ {link leftReached rightReached}, reached link leftReached rightReached →
      reachedLater link leftReached rightReached)
    (next : ∀ {link leftReached rightReached a b}, x left = .ok a leftReached →
      y right = .ok b rightReached → reached link leftReached rightReached → answers link a b →
      Agreement reachedLater allowed answersLater (f a leftReached) (g b rightReached)) :
    Agreement reachedLater allowed answersLater ((x >>= f) left) ((y >>= g) right) := by
  change Agreement _ _ _ (EStateM.bind x f left) (EStateM.bind y g right)
  unfold EStateM.bind
  generalize leftOutcome : x left = leftResult at first ⊢
  generalize rightOutcome : y right = rightResult at first ⊢
  cases first with
  | ok isReached answered =>
      exact next leftOutcome rightOutcome isReached answered
  | error isReached isAllowed =>
      exact .error (failed isReached) isAllowed

theorem Agreement.bind {σ α β γ δ : Type} {reached reachedLater : Link → σ → σ → Prop}
    {allowed : Cause → Prop} {answers : Link → α → β → Prop} {answersLater : Link → γ → δ → Prop}
    {x : EStateM Cause σ α} {y : EStateM Cause σ β} {f : α → EStateM Cause σ γ}
    {g : β → EStateM Cause σ δ} {left right : σ}
    (first : Agreement reached allowed answers (x left) (y right))
    (failed : ∀ {link leftReached rightReached}, reached link leftReached rightReached →
      reachedLater link leftReached rightReached)
    (next : ∀ {link leftReached rightReached a b}, reached link leftReached rightReached →
      answers link a b →
      Agreement reachedLater allowed answersLater (f a leftReached) (g b rightReached)) :
    Agreement reachedLater allowed answersLater ((x >>= f) left) ((y >>= g) right) :=
  first.bind_of_ok failed fun _ _ => next

theorem Agreement.mono {σ α β : Type} {reached reachedLater : Link → σ → σ → Prop}
    {allowed allowedLater : Cause → Prop} {answers answersLater : Link → α → β → Prop}
    {leftResult : EStateM.Result Cause σ α} {rightResult : EStateM.Result Cause σ β}
    (agreement : Agreement reached allowed answers leftResult rightResult)
    (states : ∀ {link left right}, reached link left right → reachedLater link left right)
    (causes : ∀ {cause}, allowed cause → allowedLater cause)
    (values : ∀ {link a b}, answers link a b → answersLater link a b) :
    Agreement reachedLater allowedLater answersLater leftResult rightResult := by
  cases agreement with
  | ok isReached answered =>
      exact .ok (states isReached) (values answered)
  | error isReached isAllowed =>
      exact .error (states isReached) (causes isAllowed)

namespace Link

/-- The stores that a computation on linked stores has reached: still linked, and on the left
nothing but plain objects has come. -/
structure Reached (link : Link) (before : Store) (later : Link) (left right : Store) : Prop where
  grows : Grows link later
  stores : later.Stores left right
  inherits : before.Inherits left

end Link

namespace Effect

/-- Two computations on linked stores agree. -/
def Agrees {α β : Type} (link : Link) (left right : Store) (x : Effect α) (y : Effect β)
    (answers : Link → α → β → Prop) : Prop :=
  Agreement (link.Reached left) (fun cause => cause.isOfMessage = true) answers (x left) (y right)

variable {α β γ δ : Type} {link : Link} {left right : Store} {answers : Link → α → β → Prop}

theorem agrees_pure {a : α} {b : β} (stores : link.Stores left right)
    (answered : answers link a b) :
    Agrees link left right (pure a) (pure b) answers :=
  .ok ⟨Link.Grows.refl link, stores, Store.Inherits.refl left⟩ answered

theorem agrees_throw {cause : Cause} (stores : link.Stores left right)
    (external : cause.isOfMessage = true) :
    Agrees link left right (throw cause) (throw cause) answers :=
  .error ⟨Link.Grows.refl link, stores, Store.Inherits.refl left⟩ external

theorem agrees_throw_bind {cause : Cause} {f : γ → Effect α} {g : δ → Effect β}
    (stores : link.Stores left right) (external : cause.isOfMessage = true) :
    Agrees link left right (throw cause >>= f) (throw cause >>= g) answers :=
  .error ⟨Link.Grows.refl link, stores, Store.Inherits.refl left⟩ external

theorem Agrees.bind {answersLater : Link → γ → δ → Prop} {x : Effect α} {y : Effect β}
    {f : α → Effect γ} {g : β → Effect δ} (first : Agrees link left right x y answers)
    (next : ∀ {later leftReached rightReached a b}, Link.Grows link later →
      later.Stores leftReached rightReached → answers later a b →
      Agrees later leftReached rightReached (f a) (g b) answersLater) :
    Agrees link left right (x >>= f) (y >>= g) answersLater := by
  refine Agreement.bind first (fun isReached => isReached) fun isReached answered => ?_
  refine (next isReached.grows isReached.stores answered).mono ?_ (fun external => external)
    (fun answered => answered)
  intro later leftReached rightReached laterReached
  exact ⟨isReached.grows.trans laterReached.grows, laterReached.stores,
    isReached.inherits.trans laterReached.inherits⟩

theorem agrees_get_bind {f : Store → Effect α} {g : Store → Effect β}
    (next : Agrees link left right (f left) (g right) answers) :
    Agrees link left right (get >>= f) (get >>= g) answers :=
  next

/-- Both stores are replaced. -/
theorem agrees_modify_bind {later : Link} {change otherChange : Store → Store} {f : Unit → Effect α}
    {g : Unit → Effect β} (grows : Link.Grows link later) (inherits : left.Inherits (change left))
    (next : Agrees later (change left) (otherChange right) (f ()) (g ()) answers) :
    Agrees link left right (modify change >>= f) (modify otherChange >>= g) answers := by
  refine Agreement.mono next ?_ (fun external => external) (fun answered => answered)
  intro last leftReached rightReached isReached
  exact ⟨grows.trans isReached.grows, isReached.stores, inherits.trans isReached.inherits⟩

theorem agrees_liftExcept {result : Except Cause α} (stores : link.Stores left right)
    (external : ∀ cause, result = .error cause → cause.isOfMessage = true) :
    Agrees link left right (liftExcept result) (liftExcept result) (fun _ a b => a = b) := by
  cases result with
  | ok value =>
      exact agrees_pure stores rfl
  | error cause =>
      exact agrees_throw stores (external cause rfl)

/-- Both go on with the same outcome of something that only reads, or crash with it. -/
theorem agrees_settle_bind {outcome : Except Crash γ} {f : γ → Effect α} {g : γ → Effect β}
    (stores : link.Stores left right)
    (next : ∀ result, outcome = .ok result →
      Agrees link left right (f result) (g result) answers) :
    Agrees link left right (settle outcome >>= f) (settle outcome >>= g) answers := by
  cases outcome with
  | ok result =>
      exact next result rfl
  | error crash =>
      exact agrees_throw_bind stores rfl

end Effect

/-! ## Arguments -/

section Arguments

open Effect

variable {link : Link} {left right : Store}

theorem agrees_mismatch {α : Type} {answers : Link → α → α → Prop} {found : Value}
    (stores : link.Stores left right) (known : link.Knows found) (selector : Selector)
    (expected : String) :
    Agrees link left right (mismatch selector expected found) (mismatch selector expected found)
      answers := by
  apply agrees_get_bind
  rw [stores.className known]
  exact agrees_throw stores rfl

theorem agrees_expectBool {value : Value} (stores : link.Stores left right)
    (known : link.Knows value) (selector : Selector) :
    Agrees link left right (expectBool selector value) (expectBool selector value)
      (fun _ a b => a = b) := by
  cases value with
  | bool value =>
      exact agrees_pure stores rfl
  | _ =>
      exact agrees_mismatch stores known selector "boolean"

theorem agrees_numberArgument {value : Value} (stores : link.Stores left right)
    (known : link.Knows value) (selector : Selector) :
    Agrees link left right (numberArgument selector value) (numberArgument selector value)
      (fun _ a b => a = b) := by
  cases value with
  | int value =>
      exact agrees_pure stores rfl
  | float value =>
      exact agrees_pure stores rfl
  | _ =>
      exact agrees_mismatch stores known selector "number"

theorem agrees_intArgument {value : Value} (stores : link.Stores left right)
    (known : link.Knows value) (selector : Selector) :
    Agrees link left right (intArgument selector value) (intArgument selector value)
      (fun _ a b => a = b) := by
  cases value with
  | int value =>
      exact agrees_pure stores rfl
  | _ =>
      exact agrees_mismatch stores known selector "integer"

theorem agrees_stringArgument {value : Value} (stores : link.Stores left right)
    (known : link.Knows value) (selector : Selector) :
    Agrees link left right (stringArgument selector value) (stringArgument selector value)
      (fun _ a b => a = b) := by
  cases value with
  | string text =>
      exact agrees_pure stores rfl
  | _ =>
      exact agrees_mismatch stores known selector "string"

theorem agrees_indexArgument {value : Value} (stores : link.Stores left right)
    (known : link.Knows value) (selector : Selector) (size : Nat) :
    Agrees link left right (indexArgument selector size value) (indexArgument selector size value)
      (fun _ a b => a = b) := by
  apply (agrees_intArgument stores known selector).bind
  rintro later leftReached rightReached index _ _ laterStores rfl
  split
  · exact agrees_throw laterStores rfl
  · exact agrees_pure laterStores rfl

theorem agrees_blockArgument {value : Value} (stores : link.Stores left right)
    (known : link.Knows value) (selector : Selector) :
    Agrees link left right (blockArgument selector value) (blockArgument selector value)
      Link.Blocks := by
  apply agrees_get_bind
  have sights := stores.see known
  generalize left.see value = leftSeen, right.see value = rightSeen at sights ⊢
  cases sights with
  | block blocks _ =>
      exact agrees_pure stores blocks
  | _ =>
      exact agrees_mismatch stores known selector "block"

theorem agrees_arrayArgument {value : Value} (stores : link.Stores left right)
    (known : link.Knows value) (selector : Selector) :
    Agrees link left right (arrayArgument selector value) (arrayArgument selector value)
      (fun later a b => a = b ∧ ∀ item ∈ a, later.Knows item) := by
  apply agrees_get_bind
  have sights := stores.see known
  generalize left.see value = leftSeen, right.see value = rightSeen at sights ⊢
  cases sights with
  | array _ items =>
      exact agrees_pure stores ⟨rfl, items⟩
  | _ =>
      exact agrees_mismatch stores known selector "array"

theorem agrees_newArray {items : List Value} (stores : link.Stores left right)
    (known : ∀ value ∈ items, link.Knows value) :
    Agrees link left right (newArray items) (newArray items)
      (fun later a b => a = b ∧ later.Knows a) := by
  obtain ⟨sameId, later, grows, has, laterStores⟩ := stores.alloc (Link.linkedArray known)
  exact .ok ⟨grows, laterStores, Store.inherits_alloc left rfl trivial⟩
    ⟨congrArg Value.ref sameId, Link.knows_ref.mpr has⟩

end Arguments

/-! ## Actions and loops -/

namespace Link

/-- What a message leads to on either side. -/
inductive Actions (link : Link) : Action → Action → Prop
  | answer {value : Value} : link.Knows value → Actions link (.answer value) (.answer value)
  | call {left right : BlockRef} {arguments : List Value} {leftLoop rightLoop : Option Iteration} :
      link.Blocks left right → (∀ value ∈ arguments, link.Knows value) →
      link.Pending leftLoop rightLoop →
      Actions link (.call left arguments leftLoop) (.call right arguments rightLoop)
  | write (text : String) {value : Value} : link.Knows value →
      Actions link (.write text value) (.write text value)

end Link

section Loops

open Effect

variable {link : Link} {left right : Store}

theorem agrees_answer {value : Value} (stores : link.Stores left right)
    (known : link.Knows value) :
    Agrees link left right (answer value) (answer value) Link.Actions :=
  agrees_pure stores (.answer known)

theorem agrees_evaluate {value : Value} (stores : link.Stores left right)
    (known : link.Knows value) :
    Agrees link left right (evaluate value) (evaluate value) Link.Actions := by
  apply agrees_get_bind
  have sights := stores.see known
  generalize left.see value = leftSeen, right.see value = rightSeen at sights ⊢
  cases sights with
  | block blocks _ =>
      exact agrees_pure stores (.call blocks (fun _ impossible => nomatch impossible) .none)
  | _ =>
      exact agrees_pure stores (.answer known)

theorem agrees_answer_newArray {items : List Value} (stores : link.Stores left right)
    (known : ∀ value ∈ items, link.Knows value) :
    Agrees link left right (do return .answer (← newArray items))
      (do return .answer (← newArray items)) Link.Actions := by
  apply (agrees_newArray stores known).bind
  rintro later leftReached rightReached value _ _ laterStores ⟨rfl, knownArray⟩
  exact agrees_pure laterStores (.answer knownArray)

/-- A loop calls a block with known arguments and goes on as the same loop. -/
theorem agrees_callThen {leftBlock rightBlock : BlockRef} {arguments : List Value}
    {leftLoop rightLoop : Iteration} (stores : link.Stores left right)
    (blocks : link.Blocks leftBlock rightBlock)
    (known : ∀ value ∈ arguments, link.Knows value) (loops : link.Loops leftLoop rightLoop) :
    Agrees link left right (pure (Iteration.callThen leftBlock arguments leftLoop))
      (pure (Iteration.callThen rightBlock arguments rightLoop)) Link.Actions :=
  agrees_pure stores (.call blocks known (.some loops))

theorem Walk.items_of_next? {α : Type} {walk rest : Walk α} {item : α}
    (next : walk.next? = some (item, rest)) : rest.items = walk.items ∧ item ∈ walk.items := by
  unfold Walk.next? at next
  split at next
  · cases next
  · rename_i head tail isAhead
    cases next
    unfold Walk.items
    rw [isAhead]
    exact ⟨by simp, by simp⟩

theorem Walk.mem_items_of_passed {α : Type} {walk : Walk α} {item : α}
    (passed : item ∈ walk.passed) : item ∈ walk.items :=
  List.mem_append_left _ (List.mem_reverse.mpr passed)

theorem knows_keptItem {walk : Walk Value} (known : ∀ value ∈ walk.items, link.Knows value)
    (kept : Bool) : ∀ value ∈ Iteration.keptItem walk kept, link.Knows value := by
  intro value member
  unfold Iteration.keptItem at member
  split at member
  · exact known value (Walk.mem_items_of_passed
      (List.mem_of_mem_head? (Option.mem_toList.mp member)))
  · exact (List.not_mem_nil member).elim

theorem knows_counter {counter rest : Counter} {number : Value}
    (next : counter.advance? = some (number, rest)) : link.Knows number := by
  cases counter with
  | int following stop step =>
      cases following with
      | none =>
          cases next
      | some value =>
          obtain ⟨_, same⟩ := Option.ite_none_right_eq_some.mp next
          cases same
          exact Link.knows_int value
  | float value stop step =>
      obtain ⟨_, same⟩ := Option.ite_none_right_eq_some.mp next
      cases same
      exact Link.knows_float value

theorem noneKnown {later : Link} : ∀ value ∈ ([] : List Value), later.Knows value :=
  fun _ impossible => (List.not_mem_nil impossible).elim

theorem oneKnown {value : Value} (known : link.Knows value) :
    ∀ other ∈ [value], link.Knows other :=
  fun _ member => List.mem_singleton.mp member ▸ known

theorem twoKnown {first second : Value} (knownFirst : link.Knows first)
    (knownSecond : link.Knows second) : ∀ other ∈ [first, second], link.Knows other :=
  List.forall_mem_cons.mpr ⟨knownFirst, oneKnown knownSecond⟩

section Verdicts

variable {last : Option Value} (stores : link.Stores left right)
  (knownLast : ∀ value ∈ last, link.Knows value)
include stores knownLast

theorem agrees_whileLoop {leftCondition rightCondition : BlockRef}
    {leftBody rightBody : Option BlockRef} {goOn : Bool} (inBody : Bool)
    (loops : ∀ nowInBody, link.Loops (.whileLoop leftCondition leftBody goOn nowInBody)
      (.whileLoop rightCondition rightBody goOn nowInBody)) :
    Agrees link left right ((Iteration.whileLoop leftCondition leftBody goOn inBody).advance last)
      ((Iteration.whileLoop rightCondition rightBody goOn inBody).advance last) Link.Actions := by
  have sameSelector :
      Iteration.whileSelector leftBody goOn = Iteration.whileSelector rightBody goOn := by
    cases loops true <;> rfl
  have calls : ∀ {later leftReached rightReached}, Link.Grows link later →
      later.Stores leftReached rightReached →
      Agrees later leftReached rightReached
        (pure (Iteration.callThen leftCondition [] (.whileLoop leftCondition leftBody goOn false)))
        (pure (Iteration.callThen rightCondition []
          (.whileLoop rightCondition rightBody goOn false))) Link.Actions := by
    intro later leftReached rightReached grows laterStores
    have condition : link.Blocks leftCondition rightCondition := by
      cases loops true with
      | whileAlone _ _ condition => exact condition
      | whileLoop _ _ condition _ => exact condition
    exact agrees_callThen laterStores (grows.within.blocks condition) noneKnown
      (grows.within.loops (loops false))
  cases last with
  | none =>
      exact calls (Link.Grows.refl link) stores
  | some value =>
      cases inBody with
      | true =>
          exact calls (Link.Grows.refl link) stores
      | false =>
          dsimp only [Iteration.advance]
          rw [← sameSelector]
          apply (agrees_expectBool stores (knownLast value rfl) _).bind
          rintro later leftReached rightReached answer _ grows laterStores rfl
          generalize (answer == goOn) = verdict
          cases verdict with
          | false =>
              exact agrees_answer laterStores Link.knows_nil
          | true =>
              cases loops true with
              | whileAlone _ _ condition =>
                  exact calls grows laterStores
              | whileLoop _ _ condition body =>
                  exact agrees_callThen laterStores (grows.within.blocks body) noneKnown
                    (grows.within.loops (.whileLoop goOn true condition body))

theorem agrees_filter {leftBlock rightBlock : BlockRef} {walk : Walk Value} {keep : Bool}
    {results : List Value} (body : link.Blocks leftBlock rightBlock)
    (items : ∀ value ∈ walk.items, link.Knows value)
    (knownResults : ∀ value ∈ results, link.Knows value) :
    Agrees link left right ((Iteration.filter leftBlock walk keep results).advance last)
      ((Iteration.filter rightBlock walk keep results).advance last) Link.Actions := by
  have goesOn : ∀ {later leftReached rightReached}, Link.Grows link later →
      later.Stores leftReached rightReached → ∀ kept : List Value,
      (∀ value ∈ kept, link.Knows value) →
      Agrees later leftReached rightReached
        ((Iteration.filter leftBlock walk keep (kept ++ results)).advance none)
        ((Iteration.filter rightBlock walk keep (kept ++ results)).advance none)
        Link.Actions := by
    intro later leftReached rightReached grows laterStores kept knownKept
    have knownGrown : ∀ value ∈ kept ++ results, link.Knows value :=
      List.forall_mem_append.mpr ⟨knownKept, knownResults⟩
    simp only [Iteration.advance, pure_bind, List.nil_append]
    cases next : walk.next? with
    | none =>
        exact agrees_answer_newArray laterStores fun value member =>
          grows.within.knows (knownGrown value (List.mem_reverse.mp member))
    | some step =>
        obtain ⟨item, rest⟩ := step
        obtain ⟨sameItems, member⟩ := Walk.items_of_next? next
        exact agrees_callThen laterStores (grows.within.blocks body)
          (oneKnown (grows.within.knows (items item member)))
          (grows.within.loops (.filter keep body (sameItems ▸ items) knownGrown))
  cases last with
  | none =>
      exact goesOn (Link.Grows.refl link) stores [] noneKnown
  | some value =>
      apply (agrees_expectBool stores (knownLast value rfl) _).bind
      rintro later leftReached rightReached answer _ grows laterStores rfl
      exact goesOn grows laterStores _ (knows_keptItem items (answer == keep))

theorem agrees_detect {leftBlock rightBlock : BlockRef} {walk : Walk Value}
    {fallback : Option Value} (body : link.Blocks leftBlock rightBlock)
    (items : ∀ value ∈ walk.items, link.Knows value)
    (knownFallback : ∀ value ∈ fallback, link.Knows value) :
    Agrees link left right ((Iteration.detect leftBlock walk fallback).advance last)
      ((Iteration.detect rightBlock walk fallback).advance last) Link.Actions := by
  have goesOn : ∀ {later leftReached rightReached}, Link.Grows link later →
      later.Stores leftReached rightReached →
      Agrees later leftReached rightReached
        ((Iteration.detect leftBlock walk fallback).advance none)
        ((Iteration.detect rightBlock walk fallback).advance none) Link.Actions := by
    intro later leftReached rightReached grows laterStores
    simp only [Iteration.advance, pure_bind, Bool.false_eq_true, if_false]
    cases next : walk.next? with
    | none =>
        cases fallback with
        | none =>
            exact agrees_answer laterStores Link.knows_nil
        | some value =>
            exact agrees_evaluate laterStores (grows.within.knows (knownFallback value rfl))
    | some step =>
        obtain ⟨item, rest⟩ := step
        obtain ⟨sameItems, member⟩ := Walk.items_of_next? next
        exact agrees_callThen laterStores (grows.within.blocks body)
          (oneKnown (grows.within.knows (items item member)))
          (grows.within.loops (.detect body (sameItems ▸ items) knownFallback))
  cases last with
  | none =>
      exact goesOn (Link.Grows.refl link) stores
  | some value =>
      apply (agrees_expectBool stores (knownLast value rfl) _).bind
      rintro later leftReached rightReached found _ grows laterStores rfl
      cases found with
      | true =>
          refine agrees_answer laterStores (grows.within.knows ?_)
          cases isPassed : walk.passed with
          | nil =>
              exact Link.knows_nil
          | cons item rest =>
              exact items item (Walk.mem_items_of_passed (isPassed ▸ List.mem_cons_self))
      | false =>
          exact goesOn grows laterStores

/-- Two loops at the same point go on in the same way. -/
theorem agrees_advance {leftLoop rightLoop : Iteration} (loops : link.Loops leftLoop rightLoop) :
    Agrees link left right (leftLoop.advance last) (rightLoop.advance last) Link.Actions := by
  cases loops with
  | whileAlone goOn inBody condition =>
      exact agrees_whileLoop stores knownLast inBody
        fun nowInBody => .whileAlone goOn nowInBody condition
  | whileLoop goOn inBody condition body =>
      exact agrees_whileLoop stores knownLast inBody
        fun nowInBody => .whileLoop goOn nowInBody condition body
  | forever body =>
      exact agrees_callThen stores body noneKnown (.forever body)
  | times remaining body receiver =>
      cases remaining with
      | zero =>
          exact agrees_answer stores receiver
      | succ remaining =>
          exact agrees_callThen stores body noneKnown (.times remaining body receiver)
  | count counter body receiver =>
      dsimp only [Iteration.advance]
      cases next : counter.advance? with
      | none =>
          exact agrees_answer stores receiver
      | some step =>
          obtain ⟨number, rest⟩ := step
          exact agrees_callThen stores body (oneKnown (knows_counter next))
            (.count rest body receiver)
  | @each leftBlock rightBlock walk _ body items receiver =>
      dsimp only [Iteration.advance]
      cases next : walk.next? with
      | none =>
          exact agrees_answer stores receiver
      | some step =>
          obtain ⟨item, rest⟩ := step
          obtain ⟨sameItems, member⟩ := Walk.items_of_next? next
          exact agrees_callThen stores body (oneKnown (items item member))
            (.each body (sameItems ▸ items) receiver)
  | @eachPair leftBlock rightBlock walk _ body items receiver =>
      dsimp only [Iteration.advance]
      cases next : walk.next? with
      | none =>
          exact agrees_answer stores receiver
      | some step =>
          obtain ⟨⟨key, value⟩, rest⟩ := step
          obtain ⟨sameItems, member⟩ := Walk.items_of_next? next
          exact agrees_callThen stores body
            (twoKnown (items (key, value) member).1 (items (key, value) member).2)
            (.eachPair body (sameItems ▸ items) receiver)
  | @collect leftBlock rightBlock walk results body items knownResults =>
      have knownGrown : ∀ value ∈ last.toList ++ results, link.Knows value := by
        intro value member
        rcases List.mem_append.mp member with new | old
        · exact knownLast value (Option.mem_toList.mp new)
        · exact knownResults value old
      dsimp only [Iteration.advance]
      cases next : walk.next? with
      | none =>
          exact agrees_answer_newArray stores
            fun value member => knownGrown value (List.mem_reverse.mp member)
      | some step =>
          obtain ⟨item, rest⟩ := step
          obtain ⟨sameItems, member⟩ := Walk.items_of_next? next
          exact agrees_callThen stores body (oneKnown (items item member))
            (.collect body (sameItems ▸ items) knownGrown)
  | filter keep body items knownResults =>
      exact agrees_filter stores knownLast body items knownResults
  | @fold leftBlock rightBlock walk accumulator body items knownAccumulator =>
      have knownCurrent : link.Knows (last.getD accumulator) := by
        cases last with
        | none =>
            exact knownAccumulator
        | some value =>
            exact knownLast value rfl
      dsimp only [Iteration.advance]
      cases next : walk.next? with
      | none =>
          exact agrees_answer stores knownCurrent
      | some step =>
          obtain ⟨item, rest⟩ := step
          obtain ⟨sameItems, member⟩ := Walk.items_of_next? next
          exact agrees_callThen stores body (twoKnown knownCurrent (items item member))
            (.fold body (sameItems ▸ items) knownCurrent)
  | detect body items knownFallback =>
      exact agrees_detect stores knownLast body items knownFallback

end Verdicts

/-- Two loops start in the same way. -/
theorem agrees_begin {leftLoop rightLoop : Iteration} (stores : link.Stores left right)
    (loops : link.Loops leftLoop rightLoop) :
    Agrees link left right leftLoop.begin rightLoop.begin Link.Actions :=
  agrees_advance stores (fun _ impossible => (Option.not_mem_none _ impossible).elim) loops

theorem agrees_resume {leftLoop rightLoop : Iteration} {value : Value}
    (stores : link.Stores left right) (loops : link.Loops leftLoop rightLoop)
    (known : link.Knows value) :
    Agrees link left right (leftLoop.resume value) (rightLoop.resume value) Link.Actions :=
  agrees_advance stores (fun _ member => Option.some.inj member ▸ known) loops

end Loops

end Missive
