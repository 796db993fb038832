import Missive.Proofs.Meaning.Stepping

/-!
# What single instructions mean

For every instruction of compiled code, the evaluation that it carries out.  The operands lie on the
stack in the order in which they were evaluated, the latest on top.
-/

namespace Missive

/-! ## Effects that follow an evaluation -/

/-- From where the code has come to, the effect does what the evaluation does. -/
def Follows {α β : Type} (base : Base) (progress : Progress) (ip : Nat) (stack : List Value)
    (x : Evaluation α) (effect : Exec β) (done : α → β → Nat → List Value → Prop) : Prop :=
  Followed base done (x progress) (Run.onMachine effect (base.reached progress ip stack))

/-- The answers are the same, and the activation is as it was. -/
def Same {α : Type} (ip : Nat) (stack : List Value) (value answer : α) (reachedIp : Nat)
    (reachedStack : List Value) : Prop :=
  value = answer ∧ reachedIp = ip ∧ reachedStack = stack

/-- The stack depends on the value. -/
def Leaves {α β : Type} (ip : Nat) (after : α → List Value) (value : α) (_ : β) (reachedIp : Nat)
    (reachedStack : List Value) : Prop :=
  reachedIp = ip ∧ reachedStack = after value

section Rules

variable {α β γ δ : Type} {base : Base} {progress : Progress} {ip : Nat} {stack : List Value}
  {done : α → β → Nat → List Value → Prop}

theorem Run.onMachine_bind (y : Exec γ) (g : γ → Exec β) :
    onMachine (y >>= g) = onMachine y >>= fun answer => onMachine (g answer) := by
  funext watched
  simp only [onMachine, bind, EStateM.bind]
  cases y watched.machine with
  | ok answer machine =>
      rfl
  | error cause machine =>
      rfl

theorem follows_pure {value : α} {answer : β} (isDone : done value answer ip stack) :
    Follows base progress ip stack (pure value) (pure answer) done :=
  .answered isDone

theorem follows_throw (cause : Cause) :
    Follows base progress ip stack (throw cause) (throw cause) done :=
  .failed

theorem Follows.bind {x : Evaluation γ} {f : γ → Evaluation α} {y : Exec δ} {g : δ → Exec β}
    {middle : γ → δ → Nat → List Value → Prop}
    (first : Follows base progress ip stack x y middle)
    (next : ∀ {value answer progress ip stack}, middle value answer ip stack →
      Follows base progress ip stack (f value) (g answer) done) :
    Follows base progress ip stack (x >>= f) (y >>= g) done := by
  unfold Follows at first ⊢
  rw [Run.onMachine_bind]
  simp only [Bind.bind, EStateM.bind]
  generalize x progress = evaluated at first ⊢
  generalize Run.onMachine y (base.reached progress ip stack) = ran at first ⊢
  cases first with
  | answered isMiddle =>
      exact next isMiddle
  | failed =>
      exact .failed
  | full isFull =>
      exact .full isFull

/-- Both go on with the same answer. -/
theorem Follows.bind_same {x : Evaluation γ} {f : γ → Evaluation α} {y : Exec γ} {g : γ → Exec β}
    (first : Follows base progress ip stack x y (Same ip stack))
    (next : ∀ value progress, Follows base progress ip stack (f value) (g value) done) :
    Follows base progress ip stack (x >>= f) (y >>= g) done := by
  apply first.bind
  rintro value _ later _ _ ⟨rfl, rfl, rfl⟩
  exact next value later

/-- A computation of the machine alone, whose answer is known. -/
theorem follows_bind_of_eq {x : Evaluation α} {y : Exec γ} {g : γ → Exec β} {answer : γ}
    {laterIp : Nat} {laterStack : List Value}
    (answered : y (base.reached progress ip stack).machine =
      .ok answer (base.reached progress laterIp laterStack).machine)
    (next : Follows base progress laterIp laterStack x (g answer) done) :
    Follows base progress ip stack x (y >>= g) done := by
  unfold Follows at next ⊢
  rw [Run.onMachine_bind]
  simp only [bind, EStateM.bind]
  have ran : Run.onMachine y (base.reached progress ip stack) =
      .ok answer (base.reached progress laterIp laterStack) := by
    simp only [Run.onMachine, answered]
    rfl
  rw [ran]
  exact next

theorem follows_get_bind {f : Progress → Evaluation α} {g : Machine → Exec β}
    (next : Follows base progress ip stack (f progress)
      (g (base.reached progress ip stack).machine) done) :
    Follows base progress ip stack (get >>= f) (get >>= g) done :=
  next

theorem follows_frame_bind {x : Evaluation α} {g : Frame → Exec β}
    (next : Follows base progress ip stack x (g { base.frame with ip, stack }) done) :
    Follows base progress ip stack x (Exec.frame >>= g) done :=
  follows_bind_of_eq rfl next

theorem follows_push_as {answer : α} {after : α → List Value} (value : Value)
    (isAfter : after answer = value :: stack) :
    Follows base progress ip stack (pure answer) (Exec.push value) (Leaves ip after) := by
  unfold Exec.push
  refine follows_bind_of_eq rfl (follows_frame_bind ?_)
  dsimp only
  split
  · rename_i isFull
    exact .full isFull
  · exact .answered ⟨rfl, isAfter.symm⟩

theorem follows_push (value : Value) :
    Follows base progress ip stack (pure value) (Exec.push value) (Leaves ip (· :: stack)) :=
  follows_push_as value rfl

/-- What the evaluation answers is pushed. -/
theorem Follows.push {x : Evaluation Value} {y : Exec Value}
    (first : Follows base progress ip stack x y (Same ip stack)) :
    Follows base progress ip stack x (y >>= Exec.push) (Leaves ip (· :: stack)) := by
  rw [← bind_pure x]
  exact first.bind_same fun value _ => follows_push value

theorem follows_expectLive (found : Option α) :
    Follows base progress ip stack (Evaluation.expectLive found) (Exec.expectLive found)
      (Same ip stack) := by
  cases found with
  | some result =>
      exact follows_pure ⟨rfl, rfl, rfl⟩
  | none =>
      exact follows_throw .staleContext

/-- A computation on the objects that only reads them. -/
theorem follows_settle (outcome : Store → Except Crash α) :
    Follows base progress ip stack (Evaluation.settle (outcome progress.world.store))
      (Exec.onStore do settle (outcome (← get))) (Same ip stack) := by
  have asked : Run.onMachine (Exec.onStore do settle (outcome (← get)))
      (base.reached progress ip stack) =
    Run.onMachine (Exec.onStore (settle (outcome progress.world.store)))
      (base.reached progress ip stack) := rfl
  unfold Follows
  rw [asked]
  cases outcome progress.world.store with
  | ok result =>
      exact .answered ⟨rfl, rfl, rfl⟩
  | error crash =>
      exact .failed

end Rules

/-- The instruction carries out the evaluation. -/
def Executes {α : Type} (oracle : Oracle) (base : Base) (instruction : Instruction)
    (before : List Value) (after : α → List Value) (x : Evaluation α) : Prop :=
  ∀ progress ip, Followed base (GoesOn ip after) (x progress)
    (Run.execute oracle instruction (base.reached progress ip before))

section Instructions

variable {α : Type} {oracle : Oracle} {base : Base} {progress : Progress} {ip : Nat}
  {stack : List Value}

/-- What follows an effect on the machine is the next instruction. -/
theorem Follows.goesOn {effect : Exec Unit} {before : List Value} {after : α → List Value}
    {x : Evaluation α} (follows : Follows base progress ip before x effect (Leaves ip after)) :
    Followed base (GoesOn ip after) (x progress)
      ((do Run.onMachine effect; return none : Run (Option Ending))
        (base.reached progress ip before)) := by
  unfold Follows at follows
  change Followed base (GoesOn ip after) (x progress) (EStateM.bind (Run.onMachine effect) _ _)
  unfold EStateM.bind
  generalize x progress = evaluated at follows ⊢
  generalize Run.onMachine effect (base.reached progress ip before) = ran at follows ⊢
  cases follows with
  | answered leaves =>
      obtain ⟨rfl, rfl⟩ := leaves
      exact .answered ⟨rfl, rfl, rfl⟩
  | failed =>
      exact .failed
  | full isFull =>
      exact .full isFull

theorem Run.onMachine_andGoOn (effect : Exec Unit) :
    (do let _ ← onMachine (Exec.andGoOn effect); return none : Run (Option Ending)) =
      (do onMachine effect; return none) := by
  funext watched
  simp only [onMachine, Exec.andGoOn, bind, EStateM.bind]
  cases effect watched.machine with
  | ok _ machine =>
      rfl
  | error cause machine =>
      rfl

theorem executes_of_follows {instruction : Instruction} {effect : Exec Unit} {before : List Value}
    {after : α → List Value} {x : Evaluation α}
    (isEffect : Run.execute oracle instruction =
      (do let _ ← Run.onMachine (Exec.andGoOn effect); return none))
    (follows : ∀ progress ip, Follows base progress ip before x effect (Leaves ip after)) :
    Executes oracle base instruction before after x := by
  intro progress ip
  rw [isEffect, Run.onMachine_andGoOn]
  exact (follows progress ip).goesOn

/-! ## Operands and constants -/

theorem executes_pushNil :
    Executes oracle base (.bare .pushNil) stack (· :: stack) (pure .nil) :=
  executes_of_follows rfl fun _ _ => follows_push .nil

theorem executes_pushTrue :
    Executes oracle base (.bare .pushTrue) stack (· :: stack) (pure (.bool true)) :=
  executes_of_follows rfl fun _ _ => follows_push (.bool true)

theorem executes_pushFalse :
    Executes oracle base (.bare .pushFalse) stack (· :: stack) (pure (.bool false)) :=
  executes_of_follows rfl fun _ _ => follows_push (.bool false)

theorem executes_pushSelf :
    Executes oracle base (.bare .pushSelf) stack (· :: stack) (pure base.site.receiver) :=
  executes_of_follows rfl fun _ _ => follows_frame_bind (follows_push base.frame.receiver)

theorem executes_pop (value : Value) :
    Executes oracle base (.bare .pop) (value :: stack) (fun _ => stack) (pure ()) :=
  fun _ _ => .answered ⟨rfl, rfl, rfl⟩

theorem executes_dup (value : Value) :
    Executes oracle base (.bare .dup) (value :: stack) (fun _ => value :: value :: stack)
      (pure ()) :=
  executes_of_follows rfl fun _ _ => follows_bind_of_eq rfl (follows_push_as value rfl)

/-- The value for which a constant stands; code and class descriptors are no values. -/
def Constant.value? : Constant → Option Value
  | .int value => some (.int value)
  | .float value => some (.float value)
  | .string text => some (.string text)
  | .bool value => some (.bool value)
  | .nil => some .nil
  | .block _ | .classDescriptor _ => none

/-- A constant that an operand selects. -/
theorem constantAt?_reached {index : Nat} {constant : Constant}
    (found : base.frame.code.constants[index]? = some constant) :
    Exec.constantAt? (some index) (base.reached progress ip stack).machine =
      .ok (some constant) (base.reached progress ip stack).machine :=
  congrArg (EStateM.Result.ok · (base.reached progress ip stack).machine) found

theorem operandIndex?_of_le {index : Nat} (small : index ≤ Instruction.maxPackedIndex) :
    Exec.operandIndex? (Int32.ofNat index) = some index := by
  unfold Instruction.maxPackedIndex at small
  exact Exec.operandIndex?_ofNat (by omega)

theorem executes_pushConstant {index : Nat} {constant : Constant} {value : Value}
    (small : index ≤ Instruction.maxPackedIndex)
    (found : base.frame.code.constants[index]? = some constant)
    (isValue : constant.value? = some value) :
    Executes oracle base (.indexed .pushConstant index) stack (· :: stack) (pure value) := by
  apply executes_of_follows rfl
  intro progress ip
  unfold Exec.pushConstant Instruction.indexed
  dsimp only
  rw [operandIndex?_of_le small]
  refine follows_bind_of_eq (constantAt?_reached found) ?_
  cases constant with
  | int _ | float _ | string _ | bool _ | nil =>
      cases isValue
      exact follows_push _
  | block _ | classDescriptor _ =>
      cases isValue

/-! ## Variables -/

theorem follows_loadSlot (context : ContextId) (slot : Nat) :
    Follows base progress ip stack (Evaluation.loadSlot context slot) (Exec.loadSlot context slot)
      (Leaves ip (· :: stack)) :=
  follows_get_bind (follows_expectLive _).push

theorem follows_storeSlot (context : ContextId) (slot : Nat) (value : Value) :
    Follows base progress ip stack (Evaluation.storeSlot context slot value)
      (Exec.storeSlot context slot value) (Leaves ip fun _ => stack) := by
  apply follows_get_bind
  rw [Base.reached_contexts]
  by_cases isLive : progress.world.contexts.isLive context = true
  · rw [if_pos isLive, if_pos isLive]
    exact .answered ⟨rfl, rfl⟩
  · rw [if_neg isLive, if_neg isLive]
    exact follows_throw .staleContext

/-- The contexts outside are the same on both sides. -/
theorem follows_outerSlot {access : Access} {slot depth : Nat}
    (slotFits : slot ≤ Instruction.maxPackedIndex) (near : depth ≤ Instruction.maxPackedCount) :
    Follows base progress ip stack (Evaluation.outerContext base.site access slot depth)
      (Exec.outerSlot (.packed (access.opcode (.outer slot depth)) slot depth))
      (fun context found reachedIp reachedStack =>
        found = (context, slot) ∧ reachedIp = ip ∧ reachedStack = stack) := by
  unfold Exec.outerSlot Instruction.packed
  dsimp only
  rw [Instruction.unpack_packedOperand slotFits near]
  refine follows_get_bind (follows_frame_bind ((follows_expectLive _).bind_same ?_))
  intro target later
  cases target with
  | some context =>
      exact follows_pure ⟨rfl, rfl, rfl⟩
  | none =>
      exact follows_throw _

theorem follows_receiverRecord :
    Follows base progress ip stack (Evaluation.receiverRecord base.site) Exec.receiverRecord
      (Same ip stack) := by
  refine follows_frame_bind (follows_get_bind ?_)
  rw [Base.reached_store]
  dsimp only [Base.site]
  cases progress.world.store.see base.frame.receiver with
  | record id classId fields =>
      exact follows_pure ⟨rfl, rfl, rfl⟩
  | nil | bool _ | int _ | float _ | string _ | array _ _ | dictionary _ _ | block _ _
  | classObject _ _ | gone _ =>
      exact follows_throw _

theorem follows_owner (access : Access) :
    Follows base progress ip stack (Evaluation.ownerOf base.site access)
      (Exec.owner (access.opcode .classVar)) (Same ip stack) := by
  apply follows_frame_bind
  unfold Evaluation.ownerOf
  dsimp only [Base.site]
  cases base.frame.owner with
  | some id =>
      exact follows_pure ⟨rfl, rfl, rfl⟩
  | none =>
      exact follows_throw _

/-- The name that an operand selects. -/
theorem nameOperand_reached {opcode : Opcode} {index : Nat} {name : String}
    (small : index ≤ Instruction.maxPackedIndex)
    (found : base.frame.code.constants[index]? = some (.string name)) :
    Exec.nameOperand (.indexed opcode index) (base.reached progress ip stack).machine =
      .ok name (base.reached progress ip stack).machine := by
  unfold Exec.nameOperand Instruction.indexed
  simp only [bind, EStateM.bind, operandIndex?_of_le small, constantAt?_reached found]
  rfl

section Loads

variable {name : String}

theorem executes_load_slot {index : Nat} (fits : index < 0x80000000) :
    Executes oracle base (.indexed .loadLocal index) stack (· :: stack)
      (Evaluation.load base.site name (.slot index)) := by
  apply executes_of_follows rfl
  intro progress ip
  unfold Instruction.indexed
  dsimp only
  rw [Exec.elementCount_ofNat fits]
  exact follows_frame_bind (follows_loadSlot _ index)

theorem executes_load_outer {slot depth : Nat} (slotFits : slot ≤ Instruction.maxPackedIndex)
    (near : depth ≤ Instruction.maxPackedCount) :
    Executes oracle base (.packed .loadOuter slot depth) stack (· :: stack)
      (Evaluation.load base.site name (.outer slot depth)) := by
  apply executes_of_follows rfl
  intro progress ip
  apply (follows_outerSlot slotFits near).bind
  rintro context _ later _ _ ⟨rfl, rfl, rfl⟩
  exact follows_loadSlot context slot

theorem executes_load_field {index : Nat} (fits : index < 0x80000000) :
    Executes oracle base (.indexed .loadField index) stack (· :: stack)
      (Evaluation.load base.site name (.field index)) := by
  apply executes_of_follows rfl
  intro progress ip
  unfold Instruction.indexed
  dsimp only
  rw [Exec.elementCount_ofNat fits]
  apply follows_receiverRecord.bind_same
  intro record later
  dsimp only
  cases record.2.2[index]? with
  | some value =>
      exact follows_push value
  | none =>
      exact follows_get_bind (follows_throw _)

theorem executes_load_classVar {index : Nat} (small : index ≤ Instruction.maxPackedIndex)
    (found : base.frame.code.constants[index]? = some (.string name)) :
    Executes oracle base (.indexed .loadClassVar index) stack (· :: stack)
      (Evaluation.load base.site name .classVar) := by
  apply executes_of_follows rfl
  intro progress ip
  apply follows_bind_of_eq (nameOperand_reached small found)
  refine (follows_owner .load).bind_same fun id later => follows_get_bind ?_
  rw [Base.reached_store]
  cases later.world.store.classVar? id name with
  | some value =>
      exact follows_push value
  | none =>
      exact follows_throw _

theorem executes_load_global {index : Nat} (small : index ≤ Instruction.maxPackedIndex)
    (found : base.frame.code.constants[index]? = some (.string name)) :
    Executes oracle base (.indexed .loadGlobal index) stack (· :: stack)
      (Evaluation.load base.site name .global) := by
  apply executes_of_follows rfl
  intro progress ip
  refine follows_bind_of_eq (nameOperand_reached small found) (follows_get_bind ?_)
  rw [Base.reached_globals]
  cases progress.world.globals.get? name with
  | some value =>
      exact follows_push value
  | none =>
      exact follows_throw _

end Loads

section Stores

variable {name : String} {value : Value}

theorem executes_store_slot {index : Nat} (fits : index < 0x80000000) :
    Executes oracle base (.indexed .storeLocal index) (value :: stack) (fun _ => value :: stack)
      (Evaluation.store base.site name value (.slot index)) := by
  apply executes_of_follows rfl
  intro progress ip
  unfold Instruction.indexed
  dsimp only
  rw [Exec.elementCount_ofNat fits]
  exact follows_bind_of_eq rfl (follows_frame_bind (follows_storeSlot _ index value))

theorem executes_store_outer {slot depth : Nat} (slotFits : slot ≤ Instruction.maxPackedIndex)
    (near : depth ≤ Instruction.maxPackedCount) :
    Executes oracle base (.packed .storeOuter slot depth) (value :: stack)
      (fun _ => value :: stack) (Evaluation.store base.site name value (.outer slot depth)) := by
  apply executes_of_follows rfl
  intro progress ip
  apply (follows_outerSlot slotFits near).bind
  rintro context _ later _ _ ⟨rfl, rfl, rfl⟩
  exact follows_bind_of_eq rfl (follows_storeSlot context slot value)

theorem executes_store_field {index : Nat} (fits : index < 0x80000000) :
    Executes oracle base (.indexed .storeField index) (value :: stack) (fun _ => value :: stack)
      (Evaluation.store base.site name value (.field index)) := by
  apply executes_of_follows rfl
  intro progress ip
  unfold Instruction.indexed
  dsimp only
  rw [Exec.elementCount_ofNat fits]
  refine follows_receiverRecord.bind_same fun record later => ?_
  refine follows_bind_of_eq rfl ?_
  dsimp only
  by_cases inside : index < record.2.2.length
  · rw [if_pos inside, if_pos inside]
    exact .answered ⟨rfl, rfl⟩
  · rw [if_neg inside, if_neg inside]
    exact follows_get_bind (follows_throw _)

theorem executes_store_classVar {index : Nat} (small : index ≤ Instruction.maxPackedIndex)
    (found : base.frame.code.constants[index]? = some (.string name)) :
    Executes oracle base (.indexed .storeClassVar index) (value :: stack)
      (fun _ => value :: stack) (Evaluation.store base.site name value .classVar) := by
  apply executes_of_follows rfl
  intro progress ip
  apply follows_bind_of_eq (nameOperand_reached small found)
  apply (follows_owner .store).bind_same
  intro id later
  refine follows_bind_of_eq rfl (follows_get_bind ?_)
  rw [Base.reached_store]
  cases later.world.store.classVarOwner? id name with
  | some holder =>
      exact .answered ⟨rfl, rfl⟩
  | none =>
      exact follows_throw _

theorem executes_store_global {index : Nat} (small : index ≤ Instruction.maxPackedIndex)
    (found : base.frame.code.constants[index]? = some (.string name)) :
    Executes oracle base (.indexed .storeGlobal index) (value :: stack) (fun _ => value :: stack)
      (Evaluation.store base.site name value .global) := by
  apply executes_of_follows rfl
  intro progress ip
  refine follows_bind_of_eq (nameOperand_reached small found) (follows_bind_of_eq rfl ?_)
  exact .answered ⟨rfl, rfl⟩

end Stores

/-- The instruction that uses the variable at a location, for code with a pool of constants. -/
inductive Access.Uses (access : Access) (name : String) (pool : List Constant) :
    Location → Instruction → Prop
  | slot {index : Nat} :
      Uses access name pool (.slot index) (.indexed (access.opcode (.slot index)) index)
  | outer {slot depth : Nat} : depth ≤ Instruction.maxPackedCount →
      Uses access name pool (.outer slot depth)
        (.packed (access.opcode (.outer slot depth)) slot depth)
  | field {index : Nat} :
      Uses access name pool (.field index) (.indexed (access.opcode (.field index)) index)
  | classVar {index : Nat} : index ≤ Instruction.maxPackedIndex →
      pool[index]? = some (.string name) →
      Uses access name pool .classVar (.indexed (access.opcode .classVar) index)
  | global {index : Nat} : index ≤ Instruction.maxPackedIndex →
      pool[index]? = some (.string name) →
      Uses access name pool .global (.indexed (access.opcode .global) index)

/-- The value of the variable is pushed. -/
theorem executes_load {name : String} {location : Location} {instruction : Instruction}
    (uses : Access.load.Uses name base.frame.code.constants location instruction)
    (fits : location.fits = true) :
    Executes oracle base instruction stack (· :: stack)
      (Evaluation.load base.site name location) := by
  cases uses with
  | slot =>
      exact executes_load_slot (of_decide_eq_true fits)
  | outer near =>
      exact executes_load_outer (of_decide_eq_true fits) near
  | field =>
      exact executes_load_field (of_decide_eq_true fits)
  | classVar small found =>
      exact executes_load_classVar small found
  | global small found =>
      exact executes_load_global small found

/-- The value on the stack is stored and stays there. -/
theorem executes_store {name : String} {location : Location} {instruction : Instruction}
    {value : Value} (uses : Access.store.Uses name base.frame.code.constants location instruction)
    (fits : location.fits = true) :
    Executes oracle base instruction (value :: stack) (fun _ => value :: stack)
      (Evaluation.store base.site name value location) := by
  cases uses with
  | slot =>
      exact executes_store_slot (of_decide_eq_true fits)
  | outer near =>
      exact executes_store_outer (of_decide_eq_true fits) near
  | field =>
      exact executes_store_field (of_decide_eq_true fits)
  | classVar small found =>
      exact executes_store_classVar small found
  | global small found =>
      exact executes_store_global small found

/-! ## Messages -/

theorem popMany_reached (values : List Value) :
    Exec.popMany values.length (base.reached progress ip (values.reverse ++ stack)).machine =
      .ok values (base.reached progress ip stack).machine := by
  have enough : ((values.reverse ++ stack).take values.length) = values.reverse :=
    List.take_left' List.length_reverse
  have others : ((values.reverse ++ stack).drop values.length) = stack :=
    List.drop_left' List.length_reverse
  have current : Exec.frame (base.reached progress ip (values.reverse ++ stack)).machine =
      .ok { base.frame with ip, stack := values.reverse ++ stack }
        (base.reached progress ip (values.reverse ++ stack)).machine := rfl
  simp only [Exec.popMany, bind, EStateM.bind, current, enough, List.length_reverse,
    Nat.lt_irrefl, if_false, List.reverse_reverse]
  have modified : Exec.modifyFrame (fun frame => { frame with
      stack := frame.stack.drop values.length })
      (base.reached progress ip (values.reverse ++ stack)).machine =
      .ok ()
        (base.reached progress ip ((values.reverse ++ stack).drop values.length)).machine := rfl
  rw [modified, others]
  rfl

theorem takeMessage_reached {opcode : Opcode} {index : Nat} {selector : Selector} {target : Value}
    {values : List Value} (small : index ≤ Instruction.maxPackedIndex)
    (few : values.length ≤ Instruction.maxPackedCount)
    (found : base.frame.code.constants[index]? = some (.string selector)) :
    Exec.takeMessage (.packed opcode index values.length)
        (base.reached progress ip (values.reverse ++ target :: stack)).machine =
      .ok (target, selector, values) (base.reached progress ip stack).machine := by
  unfold Exec.takeMessage Instruction.packed
  simp only [bind, EStateM.bind, Instruction.unpack_packedOperand small few,
    constantAt?_reached found, popMany_reached]
  rfl

/-- The oracle gets the message and its answer is pushed. -/
theorem executes_answer {opcode : Opcode} {toSuper : Bool} {index : Nat} {selector : Selector}
    {target : Value} {values : List Value} (small : index ≤ Instruction.maxPackedIndex)
    (few : values.length ≤ Instruction.maxPackedCount)
    (found : base.frame.code.constants[index]? = some (.string selector))
    (isSend : Run.execute oracle (.packed opcode index values.length) =
      Run.answer oracle toSuper (.packed opcode index values.length)) :
    Executes oracle base (.packed opcode index values.length) (values.reverse ++ target :: stack)
      (· :: stack) (Evaluation.ask oracle ⟨toSuper, target, selector, values⟩) := by
  intro progress ip
  have taken : Run.onMachine (Exec.takeMessage (.packed opcode index values.length))
      (base.reached progress ip (values.reverse ++ target :: stack)) =
      .ok (target, selector, values) (base.reached progress ip stack) := by
    simp only [Run.onMachine, takeMessage_reached small few found]
    rfl
  rw [isSend]
  simp only [Run.answer, bind, EStateM.bind, taken]
  have sameWorld : (base.reached progress ip stack).machine.world = progress.world := rfl
  have sameCalls : (base.reached progress ip stack).calls = progress.calls := rfl
  simp only [Run.onWorld, Evaluation.ask, sameWorld, sameCalls]
  cases oracle ⟨toSuper, target, selector, values⟩ progress.world with
  | mk answer world =>
      cases answer with
      | error cause =>
          exact .failed
      | ok value =>
          have pushed : Follows base
              ⟨world, progress.calls ++ [⟨toSuper, target, selector, values⟩]⟩ ip stack
              (pure value) (Exec.push value) (Leaves ip (· :: stack)) := follows_push value
          exact pushed.goesOn

/-! ## Objects -/

/-- An effect that changes the world as the evaluation does and then pushes the value. -/
theorem follows_push_of_eq {x : Evaluation Value} {value : Value} {later : Progress}
    {effect : Exec Unit} (answers : x progress = .ok value later)
    (sameCalls : later.calls = progress.calls)
    (isPush : effect (base.reached progress ip stack).machine =
      Exec.push value (base.reached later ip stack).machine) :
    Follows base progress ip stack x effect (Leaves ip (· :: stack)) := by
  have pushed : Follows base later ip stack (pure value) (Exec.push value)
      (Leaves ip (· :: stack)) := follows_push value
  have ran : Run.onMachine effect (base.reached progress ip stack) =
      Run.onMachine (Exec.push value) (base.reached later ip stack) := by
    simp only [Run.onMachine, isPush]
    exact congrArg (fun calls => Run.onMachine (Exec.push value)
      ⟨(base.reached later ip stack).machine, calls⟩) sameCalls.symm
  unfold Follows at pushed ⊢
  rw [answers, ran]
  exact pushed

theorem executes_makeArray {values : List Value} (fits : values.length < 0x80000000) :
    Executes oracle base (.indexed .makeArray values.length) (values.reverse ++ stack)
      (· :: stack) (Evaluation.create fun _ => .array values) := by
  apply executes_of_follows rfl
  intro progress ip
  unfold Instruction.indexed
  dsimp only
  rw [Exec.elementCount_ofNat fits]
  exact follows_bind_of_eq (popMany_reached values) (follows_push_of_eq rfl rfl rfl)

/-- The row of keys and values that stands for pairs. -/
def Entries.row (pairs : List (Value × Value)) : List Value :=
  pairs.flatMap fun pair => [pair.1, pair.2]

theorem Entries.length_row (pairs : List (Value × Value)) :
    (Entries.row pairs).length = 2 * pairs.length := by
  induction pairs with
  | nil =>
      rfl
  | cons pair rest inductionHypothesis =>
      change (row rest).length + 2 = 2 * (rest.length + 1)
      omega

theorem Entries.pairs_row (pairs : List (Value × Value)) :
    Exec.pairs (Entries.row pairs) = pairs := by
  induction pairs with
  | nil =>
      rfl
  | cons pair rest inductionHypothesis =>
      exact congrArg (pair :: ·) inductionHypothesis

theorem executes_makeDictionary {pairs : List (Value × Value)} (fits : pairs.length < 0x80000000) :
    Executes oracle base (.indexed .makeDictionary pairs.length)
      ((Entries.row pairs).reverse ++ stack) (· :: stack) (Evaluation.createDictionary pairs) := by
  apply executes_of_follows rfl
  intro progress ip
  unfold Instruction.indexed Exec.makeDictionary Evaluation.createDictionary
  dsimp only
  rw [Exec.elementCount_ofNat fits, ← Entries.length_row]
  refine follows_bind_of_eq (popMany_reached _) ?_
  rw [Entries.pairs_row]
  have compared : Follows base progress ip stack
      (Evaluation.settle (Entries.ofPairs progress.world.store pairs)) _ (Same ip stack) :=
    follows_settle fun store => Entries.ofPairs store pairs
  exact compared.bind_same fun entries later => follows_push_of_eq rfl rfl rfl

theorem executes_makeClosure {index count : Nat} {code : CodeUnit}
    (small : index ≤ Instruction.maxPackedIndex) (few : count ≤ Instruction.maxPackedCount)
    (found : base.frame.code.constants[index]? = some (.block code)) :
    Executes oracle base (.packed .makeClosure index count) stack (· :: stack)
      (Evaluation.create fun _ =>
        .block
          { body := code, parameterCount := count, outer := base.site.context
            receiver := base.site.receiver, owner := base.site.owner
            classSide := base.site.classSide, home := base.site.home
            origin := base.site.origin }) := by
  apply executes_of_follows rfl
  intro progress ip
  unfold Instruction.packed Exec.makeClosure
  dsimp only
  rw [Instruction.unpack_packedOperand small few]
  exact follows_bind_of_eq (constantAt?_reached found) (follows_push_of_eq rfl rfl rfl)

/-! ## Classes -/

theorem follows_superclassOf (descriptor : ClassDescriptor) :
    Follows base progress ip stack (evaluateSuperclass descriptor) (Exec.superclassOf descriptor)
      (Same ip stack) := by
  unfold evaluateSuperclass Exec.superclassOf
  cases descriptor.superclass with
  | none =>
      exact follows_pure ⟨rfl, rfl, rfl⟩
  | some name =>
      apply follows_get_bind
      dsimp only
      rw [Base.reached_globals, Base.reached_store]
      cases progress.world.globals.class? progress.world.store name with
      | some id =>
          exact follows_pure ⟨rfl, rfl, rfl⟩
      | none =>
          exact follows_throw _

theorem executes_defineClass {index : Nat} {descriptor : ClassDescriptor}
    (small : index ≤ Instruction.maxPackedIndex)
    (found : base.frame.code.constants[index]? = some (.classDescriptor descriptor)) :
    Executes oracle base (.indexed .defineClass index) stack (· :: stack)
      (evaluateClass descriptor) := by
  apply executes_of_follows rfl
  intro progress ip
  unfold Instruction.indexed Exec.defineClass
  dsimp only
  rw [operandIndex?_of_le small]
  refine follows_bind_of_eq (constantAt?_reached found) ?_
  apply (follows_superclassOf descriptor).bind_same
  intro superclass later
  exact follows_push_of_eq rfl rfl rfl

/-! ## Returns -/

theorem finish_reached (fromHome : Bool) (value : Value) :
    Run.finish fromHome (base.reached progress ip (value :: stack)) =
      .ok (some ⟨fromHome, value⟩) (base.reached progress ip stack) := rfl

end Instructions

end Missive
