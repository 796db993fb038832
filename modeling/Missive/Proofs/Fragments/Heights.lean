import Missive.Proofs.Classes.Agreement

/-!
# Heights of stacks

An instruction takes a fixed number of operands from the stack and leaves a fixed number on it,
whatever the operands are.  Where a message leads to another activation, the answer comes later.  So
the height of the stack of a program depends only on the place in its code and on whether it waits
for an answer, even where the methods and blocks that it calls leave their own stacks in disorder.
-/

namespace Missive

namespace Instruction

/-- How many operands the instruction takes. -/
def taken (instruction : Instruction) : Nat :=
  match instruction.opcode with
  | .pushConstant | .loadLocal | .loadOuter | .loadField | .loadClassVar | .loadGlobal | .jump
  | .pushSelf | .pushNil | .pushTrue | .pushFalse | .defineClass | .makeClosure => 0
  | .pop | .dup | .storeLocal | .storeOuter | .storeField | .storeClassVar | .storeGlobal
  | .jumpIfFalse | .newInstance | .return | .nonLocalReturn => 1
  | .send | .superSend => (unpack instruction.operand).2 + 1
  | .makeArray => Exec.elementCount instruction.operand
  | .makeDictionary => 2 * Exec.elementCount instruction.operand

/-- How many operands the instruction leaves in their place. -/
def left (instruction : Instruction) : Nat :=
  match instruction.opcode with
  | .pop | .jump | .jumpIfFalse | .return | .nonLocalReturn => 0
  | .dup => 2
  | .pushConstant | .loadLocal | .loadOuter | .loadField | .loadClassVar | .loadGlobal | .pushSelf
  | .pushNil | .pushTrue | .pushFalse | .defineClass | .makeClosure | .storeLocal | .storeOuter
  | .storeField | .storeClassVar | .storeGlobal | .newInstance | .send | .superSend | .makeArray
  | .makeDictionary => 1

/-- The instruction ends an activation. -/
def returns (instruction : Instruction) : Bool :=
  match instruction.opcode with
  | .return | .nonLocalReturn => true
  | _ => false

end Instruction

namespace Exec

variable {α β : Type}

/-! ## Computations and activations -/

/-- Where the computation succeeds, the activations are as said afterwards. -/
def Turns (x : Exec α) (before : List Frame) (after : α → List Frame → Prop) : Prop :=
  ∀ machine answer reached, machine.frames = before → x machine = .ok answer reached →
    after answer reached.frames

/-- The computation leaves the activations alone. -/
def Stays (x : Exec α) : Prop := ∀ before, Turns x before fun _ frames => frames = before

variable {before : List Frame} {after : α → List Frame → Prop} {afterwards : β → List Frame → Prop}

theorem turns_pure {answer : α} (holds : after answer before) :
    Turns (pure answer) before after := by
  rintro machine _ _ rfl ⟨⟩
  exact holds

theorem turns_throw (cause : Cause) : Turns (throw cause) before after := by
  rintro machine _ _ _ ⟨⟩

theorem Turns.bind {x : Exec α} {f : α → Exec β} (first : Turns x before after)
    (next : ∀ answer frames, after answer frames → Turns (f answer) frames afterwards) :
    Turns (x >>= f) before afterwards := by
  intro machine answer reached frames succeeded
  obtain ⟨value, between, earlier, later⟩ := bind_eq_ok.mp succeeded
  exact next value between.frames (first machine value between frames earlier) between answer
    reached rfl later

theorem Stays.bind {x : Exec α} {f : α → Exec β} (stays : Stays x)
    (next : ∀ answer, Turns (f answer) before afterwards) : Turns (x >>= f) before afterwards := by
  refine (stays before).bind ?_
  rintro answer _ rfl
  exact next answer

theorem Turns.mono {better : α → List Frame → Prop} {x : Exec α} (turns : Turns x before better)
    (weaker : ∀ answer frames, better answer frames → after answer frames) : Turns x before after :=
  fun machine answer reached frames succeeded =>
    weaker answer reached.frames (turns machine answer reached frames succeeded)

theorem turns_throw_bind {cause : Cause} {f : α → Exec β} :
    Turns (throw cause >>= f) before afterwards := by
  rintro machine _ _ _ ⟨⟩

theorem turns_get_bind {f : Machine → Exec α}
    (next : ∀ machine : Machine, machine.frames = before → Turns (f machine) before after) :
    Turns (get >>= f) before after :=
  fun machine answer reached frames succeeded =>
    next machine frames machine answer reached frames succeeded

theorem turns_modify_bind {change : Machine → Machine} {f : Unit → Exec α} {between : List Frame}
    (changes : ∀ machine, machine.frames = before → (change machine).frames = between)
    (next : Turns (f ()) between after) : Turns (modify change >>= f) before after :=
  fun machine answer reached frames succeeded =>
    next (change machine) answer reached (changes machine frames) succeeded

theorem stays_pure (answer : α) : Stays (pure answer) := fun _ => turns_pure rfl

theorem stays_throw (cause : Cause) : Stays (throw cause : Exec α) := fun _ => turns_throw cause

theorem turns_modify {change : Machine → Machine}
    (same : ∀ machine, (change machine).frames = machine.frames) :
    Turns (modify change) before fun _ frames => frames = before := by
  rintro machine _ _ rfl ⟨⟩
  exact same machine

theorem stays_onStore (effect : Effect α) : Stays (onStore effect) := by
  rintro _ machine answer reached rfl succeeded
  unfold onStore at succeeded
  cases result : effect machine.store with
  | ok found store =>
      rw [result] at succeeded
      cases succeeded
      rfl
  | error cause store =>
      rw [result] at succeeded
      cases succeeded

variable {current : Frame} {rest : List Frame}

/-- The innermost activation is looked at. -/
theorem turns_frame_bind {f : Frame → Exec α} (next : Turns (f current) (current :: rest) after) :
    Turns (frame >>= f) (current :: rest) after := by
  intro machine answer reached frames succeeded
  rw [bind_of_ok (frame_of_cons frames)] at succeeded
  exact next machine answer reached frames succeeded

theorem stays_frame : Stays frame := by
  intro before machine answer reached frames succeeded
  cases before with
  | nil =>
      rw [frame_of_nil frames] at succeeded
      cases succeeded
  | cons current rest =>
      rw [frame_of_cons frames] at succeeded
      cases succeeded
      exact frames

theorem turns_modifyFrame {change : Frame → Frame} :
    Turns (modifyFrame change) (current :: rest) fun _ frames =>
      frames = change current :: rest := by
  intro machine answer reached frames succeeded
  rw [modifyFrame_of_cons frames] at succeeded
  cases succeeded
  rfl

/-! ## Operands and variables -/

/-- The innermost activation has one operand more. -/
def Pushed (current : Frame) (rest frames : List Frame) : Prop :=
  ∃ value, frames = { current with stack := value :: current.stack } :: rest

/-- The innermost activation has so many operands less. -/
def Popped (count : Nat) (current : Frame) (rest frames : List Frame) : Prop :=
  ∃ stack, frames = { current with stack } :: rest ∧ stack.length + count = current.stack.length

theorem turns_push (value : Value) :
    Turns (push value) (current :: rest) fun _ => Pushed current rest := by
  refine turns_get_bind fun _ _ => turns_frame_bind ?_
  dsimp only
  split
  · exact turns_throw_bind
  · exact turns_modifyFrame.mono fun _ _ isPushed => ⟨value, isPushed⟩

theorem turns_pushTracked (value : Value) :
    Turns (pushTracked value) (current :: rest) fun _ => Pushed current rest :=
  turns_modify_bind (fun _ frames => frames) (turns_push value)

theorem turns_pop :
    Turns pop (current :: rest) fun _ => Popped 1 current rest := by
  refine turns_frame_bind ?_
  split
  · rename_i value others isStack
    refine turns_modifyFrame.bind ?_
    rintro _ _ rfl
    exact turns_pure ⟨others, rfl, by rw [isStack, List.length_cons]⟩
  · exact turns_throw _

theorem turns_popMany (count : Nat) :
    Turns (popMany count) (current :: rest) fun _ => Popped count current rest := by
  refine turns_frame_bind ?_
  dsimp only
  split
  · exact turns_throw_bind
  · rename_i enough
    refine turns_modifyFrame.bind ?_
    rintro _ _ rfl
    refine turns_pure ⟨current.stack.drop count, rfl, ?_⟩
    rw [List.length_take] at enough
    rw [List.length_drop]
    omega

theorem stays_peek : Stays peek := by
  intro before
  refine stays_frame.bind fun current => ?_
  split
  · exact turns_pure rfl
  · exact turns_throw _

theorem stays_constantAt? (index : Option Nat) : Stays (constantAt? index) :=
  fun _ => stays_frame.bind fun _ => turns_pure rfl

theorem stays_nameOperand (instruction : Instruction) : Stays (nameOperand instruction) := by
  refine fun _ => (stays_constantAt? _).bind fun constant => ?_
  split
  · exact turns_pure rfl
  · exact turns_throw _

theorem stays_expectLive (answer : Option α) : Stays (expectLive answer) := by
  cases answer with
  | some result =>
      exact stays_pure result
  | none =>
      exact stays_throw _

theorem turns_loadSlot (context : ContextId) (slot : Nat) :
    Turns (loadSlot context slot) (current :: rest) fun _ => Pushed current rest :=
  turns_get_bind fun _ _ => (stays_expectLive _).bind fun value =>
    turns_push value

theorem stays_storeSlot (context : ContextId) (slot : Nat) (value : Value) :
    Stays (storeSlot context slot value) := by
  refine fun before => turns_get_bind fun machine _ => ?_
  split
  · exact turns_modify fun _ => rfl
  · exact turns_throw _

theorem stays_outerSlot (instruction : Instruction) : Stays (outerSlot instruction) := by
  refine fun before => turns_get_bind fun machine _ => stays_frame.bind fun current =>
    (stays_expectLive _).bind fun found => ?_
  split
  · exact turns_pure rfl
  · exact turns_throw _

theorem stays_receiverRecord : Stays receiverRecord := by
  refine fun before => stays_frame.bind fun current => turns_get_bind fun machine _ => ?_
  dsimp only
  split
  · exact turns_pure rfl
  · exact turns_throw _

theorem stays_fieldFault (classId : ObjectId) (index : Nat) : Stays (fieldFault classId index) :=
  fun _ => turns_get_bind fun _ _ => turns_pure rfl

theorem turns_loadField (index : Nat) :
    Turns (loadField index) (current :: rest) fun _ => Pushed current rest := by
  refine stays_receiverRecord.bind fun found => ?_
  dsimp only
  split
  · exact turns_push _
  · exact (stays_fieldFault _ _).bind fun cause => turns_throw cause

theorem stays_storeField (index : Nat) : Stays (storeField index) := by
  refine fun before => stays_receiverRecord.bind fun found => stays_peek.bind fun value => ?_
  split
  · exact turns_modify fun _ => rfl
  · exact (stays_fieldFault _ _).bind fun cause => turns_throw cause

theorem stays_owner (opcode : Opcode) : Stays (owner opcode) := by
  refine fun before => stays_frame.bind fun current => ?_
  split
  · exact turns_pure rfl
  · exact turns_throw _

theorem turns_loadClassVar (instruction : Instruction) :
    Turns (loadClassVar instruction) (current :: rest) fun _ => Pushed current rest := by
  refine (stays_nameOperand _).bind fun name => (stays_owner _).bind fun id =>
    turns_get_bind fun machine _ => ?_
  split
  · exact turns_push _
  · exact turns_throw _

theorem stays_storeClassVar (instruction : Instruction) : Stays (storeClassVar instruction) := by
  refine fun before => (stays_nameOperand _).bind fun name => (stays_owner _).bind fun id =>
    stays_peek.bind fun value => turns_get_bind fun machine _ => ?_
  split
  · exact turns_modify fun _ => rfl
  · exact turns_throw _

theorem turns_loadGlobal (instruction : Instruction) :
    Turns (loadGlobal instruction) (current :: rest) fun _ => Pushed current rest := by
  refine (stays_nameOperand _).bind fun name => turns_get_bind fun machine _ => ?_
  split
  · exact turns_push _
  · exact turns_throw _

theorem stays_storeGlobal (instruction : Instruction) : Stays (storeGlobal instruction) :=
  fun _ => (stays_nameOperand _).bind fun _ => stays_peek.bind fun _ =>
    turns_modify fun _ => rfl

/-! ## Messages -/

/-- The innermost activation got an answer, or another one was entered that gives it later. -/
inductive Answered (current : Frame) (rest : List Frame) : List Frame → Prop
  | now (value : Value) :
      Answered current rest ({ current with stack := value :: current.stack } :: rest)
  | later (entered : Frame) : Answered current rest (entered :: current :: rest)

theorem stays_checkDepth : Stays checkDepth := by
  refine fun before => turns_get_bind fun machine _ => ?_
  split
  · exact turns_throw _
  · exact turns_pure rfl

theorem stays_newContext (outer : Option ContextId) (locals : List Value) :
    Stays (newContext outer locals) :=
  fun _ => turns_get_bind fun _ _ => turns_modify_bind (fun _ frames => frames) (turns_pure rfl)

theorem turns_enter (build : FrameId → Frame) :
    Turns (enter build) (current :: rest) fun _ => Answered current rest := by
  rintro machine _ _ frames ⟨⟩
  dsimp only
  rw [frames]
  exact .later _

theorem turns_callMethod (receiver : Value) (owner : ObjectId) (definition : ClassObject)
    (method : MethodDescriptor) (classSide : Bool) (arguments : List Value) :
    Turns (callMethod receiver owner definition method classSide arguments) (current :: rest)
      fun _ => Answered current rest :=
  stays_checkDepth.bind fun _ => (stays_newContext _ _).bind fun _ => turns_enter _

theorem turns_callBlock (block : BlockRef) (arguments : List Value) (loop : Option Iteration) :
    Turns (callBlock block arguments loop) (current :: rest) fun _ => Answered current rest := by
  have called : Turns (do
      checkDepth
      let context ← newContext (some block.closure.outer) arguments
      enter fun id =>
        { id, home := block.closure.home, kind := .block, code := block.closure.body, ip := 0
          stack := [], context, receiver := block.closure.receiver
          owner := block.closure.owner, classSide := block.closure.classSide
          label := blockLabelStart ++ block.closure.origin, loop }) (current :: rest)
      fun _ => Answered current rest :=
    stays_checkDepth.bind fun _ => (stays_newContext _ _).bind fun _ => turns_enter _
  unfold callBlock
  dsimp only
  split
  · exact turns_throw_bind
  · exact called

theorem stays_write (text : String) : Stays (write text) := by
  refine fun before => turns_get_bind fun machine _ => ?_
  dsimp only
  split
  · split
    · exact turns_throw _
    · exact turns_pure rfl
  · exact turns_modify fun _ => rfl

theorem turns_answer (value : Value) :
    Turns (pushTracked value) (current :: rest) fun _ => Answered current rest := by
  refine (turns_pushTracked value).mono ?_
  rintro _ _ ⟨_, rfl⟩
  exact .now _

theorem turns_perform (action : Action) :
    Turns (perform action) (current :: rest) fun _ => Answered current rest := by
  cases action with
  | answer value =>
      exact turns_answer value
  | call block arguments loop =>
      exact turns_callBlock block arguments loop
  | write text value =>
      exact (stays_write text).bind fun _ => turns_answer value

theorem turns_respond (effect : Effect Action) :
    Turns (do perform (← onStore effect)) (current :: rest) fun _ => Answered current rest :=
  (stays_onStore effect).bind turns_perform

theorem turns_respondUniversally (receiver : Value) (selector : Selector)
    (arguments : List Value) :
    Turns (respondUniversally receiver selector arguments) (current :: rest)
      fun _ => Answered current rest := by
  refine turns_get_bind fun machine _ => ?_
  dsimp only
  split
  · exact turns_respond _
  · exact turns_throw _

theorem stays_checkArgumentCount (selector : Selector) (given : Nat) :
    Stays (checkArgumentCount selector given) := by
  intro before
  unfold checkArgumentCount
  split
  · exact turns_throw _
  · exact turns_pure rfl

theorem turns_send (receiver : Value) (selector : Selector) (arguments : List Value) :
    Turns (send receiver selector arguments) (current :: rest) fun _ => Answered current rest := by
  refine (stays_checkArgumentCount _ _).bind fun _ => turns_get_bind fun machine _ => ?_
  dsimp only
  split
  · exact turns_respond _
  · split
    · exact turns_callMethod _ _ _ _ _ _
    · exact turns_respondUniversally _ _ _

theorem turns_superSend (receiver : Value) (selector : Selector) (arguments : List Value) :
    Turns (superSend receiver selector arguments) (current :: rest)
      fun _ => Answered current rest := by
  refine (stays_checkArgumentCount _ _).bind fun _ => stays_frame.bind fun frame =>
    (stays_owner _).bind fun id => turns_get_bind fun machine _ => ?_
  split
  · exact turns_callMethod _ _ _ _ _ _
  · exact turns_respondUniversally _ _ _

theorem turns_takeMessage (instruction : Instruction) :
    Turns (takeMessage instruction) (current :: rest) fun _ =>
      Popped ((Instruction.unpack instruction.operand).2 + 1) current rest := by
  refine (stays_constantAt? _).bind fun constant => ?_
  split
  · refine (turns_popMany _).bind ?_
    rintro arguments _ ⟨stack, rfl, taken⟩
    change stack.length + (Instruction.unpack instruction.operand).2 = _ at taken
    refine turns_pop.bind ?_
    rintro receiver _ ⟨remaining, rfl, popped⟩
    dsimp only at popped
    exact turns_pure ⟨remaining, rfl, by omega⟩
  · exact turns_throw _

/-! ## Objects -/

theorem turns_pushConstant (instruction : Instruction) :
    Turns (pushConstant instruction) (current :: rest) fun _ => Pushed current rest := by
  refine (stays_constantAt? _).bind fun constant => ?_
  split
  · exact turns_push _
  · exact turns_push _
  · exact turns_push _
  · exact turns_push _
  · exact turns_push _
  · exact turns_throw _
  · exact turns_throw _
  · exact turns_throw _

theorem stays_superclassOf (descriptor : ClassDescriptor) : Stays (superclassOf descriptor) := by
  intro before machine answer reached frames succeeded
  obtain ⟨rfl, _⟩ := superclassOf_ok succeeded
  exact frames

theorem turns_defineClass (instruction : Instruction) :
    Turns (defineClass instruction) (current :: rest) fun _ => Pushed current rest := by
  refine (stays_constantAt? _).bind fun constant => ?_
  split
  · exact (stays_superclassOf _).bind fun _ => turns_get_bind fun _ _ =>
      turns_modify_bind (fun _ frames => frames) (turns_pushTracked _)
  · exact turns_throw _
  · exact turns_throw _

theorem turns_makeClosure (instruction : Instruction) :
    Turns (makeClosure instruction) (current :: rest) fun _ => Pushed current rest := by
  refine (stays_constantAt? _).bind fun constant => ?_
  split
  · exact stays_frame.bind fun _ => turns_get_bind fun _ _ =>
      turns_modify_bind (fun _ frames => frames) (turns_pushTracked _)
  · exact turns_throw _

/-- The innermost activation has a value in place of so many operands. -/
def Replaced (count : Nat) (current : Frame) (rest frames : List Frame) : Prop :=
  ∃ stack, frames = { current with stack } :: rest ∧
    stack.length + count = current.stack.length + 1

theorem turns_replace {count : Nat} {x : Exec α} {f : α → Exec Unit}
    (popped : Turns x (current :: rest) fun _ => Popped count current rest)
    (pushed : ∀ answer (frame : Frame),
      Turns (f answer) (frame :: rest) fun _ => Pushed frame rest) :
    Turns (x >>= f) (current :: rest) fun _ => Replaced count current rest := by
  refine popped.bind ?_
  rintro answer _ ⟨stack, rfl, taken⟩
  refine (pushed answer _).mono ?_
  rintro _ _ ⟨value, rfl⟩
  exact ⟨value :: stack, rfl, by rw [List.length_cons]; omega⟩

theorem turns_newInstance :
    Turns newInstance (current :: rest) fun _ => Replaced 1 current rest := by
  refine turns_replace turns_pop fun value frame => turns_get_bind fun machine _ => ?_
  dsimp only
  split
  · exact turns_modify_bind (fun _ frames => frames) (turns_pushTracked _)
  · exact turns_throw _

theorem turns_makeArray (count : Nat) :
    Turns (makeArray count) (current :: rest) fun _ => Replaced count current rest :=
  turns_replace (turns_popMany count) fun _ _ => turns_get_bind fun _ _ =>
    turns_modify_bind (fun _ frames => frames) (turns_pushTracked _)

theorem turns_makeDictionary (count : Nat) :
    Turns (makeDictionary count) (current :: rest) fun _ => Replaced (2 * count) current rest :=
  turns_replace (turns_popMany (2 * count)) fun _ _ => (stays_onStore _).bind fun _ =>
    turns_get_bind fun _ _ => turns_modify_bind (fun _ frames => frames) (turns_pushTracked _)

/-! ## Instructions -/

/-- What becomes of the activations by an instruction that ends none of them. -/
inductive Leads (instruction : Instruction) (current : Frame) (rest : List Frame) :
    List Frame → Prop
  | now {ip : Nat} {stack : List Value} :
      (instruction.opcode.operandKind ≠ .target → ip = current.ip) →
      stack.length + instruction.taken = current.stack.length + instruction.left →
      Leads instruction current rest ({ current with ip, stack } :: rest)
  | later {stack : List Value} (entered : Frame) :
      stack.length + 1 + instruction.taken = current.stack.length + instruction.left →
      Leads instruction current rest (entered :: { current with stack } :: rest)

variable {instruction : Instruction} {frames : List Frame}

theorem leads_of_stays (same : instruction.left = instruction.taken) :
    Leads instruction current rest (current :: rest) :=
  .now (fun _ => rfl) (by omega)

theorem Pushed.leads (pushed : Pushed current rest frames)
    (more : instruction.left = instruction.taken + 1) : Leads instruction current rest frames := by
  obtain ⟨value, rfl⟩ := pushed
  refine .now (fun _ => rfl) ?_
  rw [List.length_cons]
  omega

theorem Popped.leads {count : Nat} (popped : Popped count current rest frames)
    (less : instruction.taken = instruction.left + count) :
    Leads instruction current rest frames := by
  obtain ⟨stack, rfl, taken⟩ := popped
  exact .now (fun _ => rfl) (by omega)

theorem Replaced.leads {count : Nat} (replaced : Replaced count current rest frames)
    (takes : instruction.taken = count) (leaves : instruction.left = 1) :
    Leads instruction current rest frames := by
  obtain ⟨stack, rfl, taken⟩ := replaced
  exact .now (fun _ => rfl) (by omega)

theorem Answered.leads {count : Nat} {stack : List Value}
    (answered : Answered { current with stack } rest frames)
    (taken : stack.length + count = current.stack.length) (takes : instruction.taken = count)
    (leaves : instruction.left = 1) : Leads instruction current rest frames := by
  cases answered with
  | now value =>
      refine .now (fun _ => rfl) ?_
      dsimp only [List.length_cons]
      omega
  | later entered =>
      refine .later entered ?_
      omega

theorem turns_andGoOn {effect : Exec Unit} {after : List Frame → Prop}
    (turns : Turns effect before fun _ => after) :
    Turns (andGoOn effect) before fun state frames => state = .running ∧ after frames :=
  turns.bind fun _ _ reached => turns_pure ⟨rfl, reached⟩

theorem turns_message {respond : Value × Selector × List Value → Exec Unit}
    (responds : ∀ message (frame : Frame), Turns (respond message) (frame :: rest)
      fun _ => Answered frame rest)
    (takes : instruction.taken = (Instruction.unpack instruction.operand).2 + 1)
    (leaves : instruction.left = 1) :
    Turns (takeMessage instruction >>= respond) (current :: rest)
      fun _ => Leads instruction current rest := by
  refine (turns_takeMessage instruction).bind ?_
  rintro message _ ⟨stack, rfl, taken⟩
  exact (responds message _).mono fun _ _ answered => answered.leads taken takes leaves

theorem turns_execute (notReturn : instruction.returns = false) :
    Turns (execute instruction) (current :: rest) fun state frames =>
      state = .running ∧ Leads instruction current rest frames := by
  obtain ⟨opcode, operand⟩ := instruction
  have ofPush : ∀ {x : Exec Unit} {instruction : Instruction},
      (Turns x (current :: rest) fun _ => Pushed current rest) →
      instruction.left = instruction.taken + 1 →
      Turns (andGoOn x) (current :: rest) fun state frames =>
        state = .running ∧ Leads instruction current rest frames := fun turns more =>
    turns_andGoOn (turns.mono fun _ _ pushed => pushed.leads more)
  have ofStore : ∀ {x : Exec Unit} {instruction : Instruction}, Stays x →
      instruction.left = instruction.taken →
      Turns (andGoOn x) (current :: rest) fun state frames =>
        state = .running ∧ Leads instruction current rest frames := fun stays same =>
    turns_andGoOn ((stays _).mono fun _ _ isSame => isSame ▸ leads_of_stays same)
  cases opcode with
  | pushConstant =>
      exact ofPush (turns_pushConstant _) rfl
  | pop =>
      exact turns_andGoOn (turns_pop.bind fun _ _ popped => turns_pure (popped.leads rfl))
  | dup =>
      exact ofPush (stays_peek.bind turns_push) rfl
  | loadLocal =>
      exact ofPush (stays_frame.bind fun _ => turns_loadSlot _ _) rfl
  | storeLocal =>
      exact ofStore (fun _ => stays_peek.bind fun _ => stays_frame.bind fun _ =>
        stays_storeSlot _ _ _ _) rfl
  | loadOuter =>
      exact ofPush ((stays_outerSlot _).bind fun _ => turns_loadSlot _ _) rfl
  | storeOuter =>
      exact ofStore (fun _ => (stays_outerSlot _).bind fun _ => stays_peek.bind fun _ =>
        stays_storeSlot _ _ _ _) rfl
  | loadField =>
      exact ofPush (turns_loadField _) rfl
  | storeField =>
      exact ofStore (stays_storeField _) rfl
  | loadClassVar =>
      exact ofPush (turns_loadClassVar _) rfl
  | storeClassVar =>
      exact ofStore (stays_storeClassVar _) rfl
  | loadGlobal =>
      exact ofPush (turns_loadGlobal _) rfl
  | storeGlobal =>
      exact ofStore (stays_storeGlobal _) rfl
  | send =>
      exact turns_andGoOn (turns_message (fun _ _ => turns_send _ _ _) rfl rfl)
  | superSend =>
      exact turns_andGoOn (turns_message (fun _ _ => turns_superSend _ _ _) rfl rfl)
  | jump =>
      refine turns_andGoOn (turns_modifyFrame.mono ?_)
      rintro _ _ rfl
      exact .now (fun notTarget => (notTarget rfl).elim) rfl
  | jumpIfFalse =>
      refine turns_andGoOn (turns_pop.bind ?_)
      rintro value _ ⟨stack, rfl, taken⟩
      split
      · refine turns_modifyFrame.mono ?_
        rintro _ _ rfl
        exact .now (fun notTarget => (notTarget rfl).elim) taken
      · exact turns_pure (.now (fun _ => rfl) taken)
      · exact turns_get_bind fun _ _ => turns_throw _
  | pushSelf =>
      exact ofPush (stays_frame.bind fun _ => turns_push _) rfl
  | pushNil | pushTrue | pushFalse =>
      exact ofPush (turns_push _) rfl
  | newInstance =>
      exact turns_andGoOn (turns_newInstance.mono fun _ _ replaced => replaced.leads rfl rfl)
  | defineClass =>
      exact ofPush (turns_defineClass _) rfl
  | makeClosure =>
      exact ofPush (turns_makeClosure _) rfl
  | makeArray =>
      exact turns_andGoOn ((turns_makeArray _).mono fun _ _ replaced => replaced.leads rfl rfl)
  | makeDictionary =>
      exact turns_andGoOn ((turns_makeDictionary _).mono fun _ _ replaced => replaced.leads rfl rfl)
  | «return» | nonLocalReturn =>
      cases notReturn

/-! ## The end of an activation -/

/-- What becomes of the activations below one that ends. -/
inductive Completed (below : List Frame) : StepState → List Frame → Prop
  | finished (value : Value) : below = [] → Completed below (.finished value) []
  | answered {caller : Frame} {rest frames : List Frame} : below = caller :: rest →
      Answered caller rest frames → Completed below .running frames

theorem turns_complete (value : Value) :
    Turns (complete value) (current :: rest) (Completed rest) := by
  refine turns_get_bind fun machine frames => ?_
  rw [frames]
  refine turns_modify_bind (fun _ _ => rfl) ?_
  cases rest with
  | nil =>
      exact turns_modify_bind (fun _ frames => frames) (turns_pure (.finished value rfl))
  | cons caller others =>
      dsimp only [List.isEmpty_cons]
      rw [if_neg Bool.false_ne_true]
      split
      · refine (turns_push value).bind ?_
        rintro _ _ ⟨_, rfl⟩
        exact turns_pure (.answered rfl (.now _))
      · exact (stays_onStore _).bind fun action => (turns_perform action).bind fun _ _ answered =>
          turns_pure (.answered rfl answered)

/-- The activation that a step ends: the innermost one, or its home. -/
inductive Ends (current : Frame) : Frame → Prop
  | itself : (∀ instruction, current.code.code[current.ip]? = some instruction →
      instruction.returns = true) → Ends current current
  | home {ended : Frame} {instruction : Instruction} : current.kind = .block →
      current.code.code[current.ip]? = some instruction → instruction.opcode = .nonLocalReturn →
      ended.id = current.home → Ends current ended

/-- What becomes of the activations by a step. -/
inductive Stepped (current : Frame) (rest : List Frame) : StepState → List Frame → Prop
  | onward {frames : List Frame} {instruction : Instruction} :
      current.code.code[current.ip]? = some instruction → instruction.returns = false →
      Leads instruction { current with ip := current.ip + 1 } rest frames →
      Stepped current rest .running frames
  | completed {above below frames : List Frame} {ended : Frame} {state : StepState} :
      current :: rest = above ++ ended :: below → Ends current ended →
      Completed below state frames → Stepped current rest state frames

theorem turns_returnFromHome (value : Value) :
    Turns (returnFromHome value) (current :: rest) fun state frames =>
      ∃ above ended below, current :: rest = above ++ ended :: below ∧
        (current.kind = .block ∧ ended.id = current.home ∨ above = []) ∧
        Completed below state frames := by
  refine turns_frame_bind ?_
  split
  · rename_i isBlock
    refine turns_get_bind fun machine frames => ?_
    rw [frames]
    rcases unwind?_cases current.home (current :: rest) with
      ⟨expired, _⟩ | ⟨above, ended, below, whole, isHome, unwound⟩
    · rw [expired]
      exact turns_throw_bind
    · rw [unwound]
      refine turns_modify_bind (fun _ _ => rfl)
        ((turns_complete value).mono fun _ _ completed => ?_)
      exact ⟨above, ended, below, whole, Or.inl ⟨isBlock, isHome⟩, completed⟩
  · exact (turns_complete value).mono fun _ _ completed =>
      ⟨[], current, rest, rfl, Or.inr rfl, completed⟩

theorem turns_instructionStep :
    Turns instructionStep (current :: rest) (Stepped current rest) := by
  refine turns_frame_bind ?_
  split
  · rename_i instruction isNext
    refine turns_modifyFrame.bind ?_
    rintro _ _ rfl
    cases isReturn : instruction.returns with
    | false =>
        refine (turns_execute isReturn).mono ?_
        rintro _ frames ⟨rfl, leads⟩
        exact .onward isNext isReturn leads
    | true =>
        have itself : Ends current current := .itself fun other same => by
          rw [isNext] at same
          cases same
          exact isReturn
        obtain ⟨opcode, operand⟩ := instruction
        cases opcode with
        | «return» =>
            refine turns_pop.bind ?_
            rintro value _ ⟨stack, rfl, _⟩
            exact (turns_complete value).mono fun _ _ completed =>
              .completed (List.nil_append _).symm itself completed
        | nonLocalReturn =>
            refine turns_pop.bind ?_
            rintro value _ ⟨stack, rfl, _⟩
            refine (turns_returnFromHome value).mono ?_
            rintro _ _ ⟨above, ended, below, whole, how, completed⟩
            cases above with
            | nil =>
                cases whole
                exact .completed (List.nil_append _).symm itself completed
            | cons _ above =>
                cases whole
                rcases how with ⟨isBlock, isHome⟩ | impossible
                · exact .completed (List.cons_append).symm (.home isBlock isNext rfl isHome)
                    completed
                · cases impossible
        | _ =>
            cases isReturn
  · rename_i ended
    refine (turns_complete _).mono fun _ _ completed => ?_
    refine .completed (List.nil_append _).symm (.itself fun instruction isNext => ?_) completed
    rw [ended] at isNext
    cases isNext

end Exec

theorem Machine.stepped {machine next : Machine} {current : Frame} {rest : List Frame}
    {state : StepState} (frames : machine.frames = current :: rest)
    (step : machine.step = (next, .ok state)) : Exec.Stepped current rest state next.frames := by
  have succeeded : Exec.step machine = .ok state next := by
    unfold Machine.step at step
    rw [frames] at step
    dsimp only [List.isEmpty_cons] at step
    rw [if_neg Bool.false_ne_true] at step
    split at step
    · cases step
      assumption
    · cases step
  rw [Exec.step_eq] at succeeded
  obtain ⟨_, counted, countedOk, succeeded⟩ := Exec.bind_eq_ok.mp succeeded
  obtain ⟨_, tidied, tidiedOk, succeeded⟩ := Exec.bind_eq_ok.mp succeeded
  rw [collectIfNeeded_eq] at tidiedOk
  cases tidiedOk
  refine Exec.turns_instructionStep _ state next ?_ succeeded
  rw [frames_tidied, Exec.eq_of_countStep countedOk]
  exact frames

/-! ## Heights in compiled code -/

/-- A layout changes as the height of the stack does. -/
theorem Fits.height {setting : Setting} {pool : List Constant} {instruction : Instruction}
    {before after : Layout} (fits : Fits setting pool instruction before after) :
    after.length + instruction.taken = before.length + instruction.left := by
  have accessed : ∀ {access : Access} (location : Location) (operand : Int32),
      access.Moves before after →
      after.length + (⟨access.opcode location, operand⟩ : Instruction).taken =
        before.length + (⟨access.opcode location, operand⟩ : Instruction).left := by
    intro access location operand moves
    cases moves with
    | load | store =>
        cases location with
        | slot _ | outer _ _ | field _ | classVar | global =>
            rfl
  cases fits with
  | pushConstant _ _ _ | pushSelf | pop | dup | defineClass _ _ | makeClosure _ _ _ | «return»
  | nonLocalReturn =>
      rfl
  | pushSimple isSimple =>
      rcases isSimple with rfl | rfl | rfl
      · rfl
      · rfl
      · rfl
  | slot moves | outer moves _ _ | field moves _ | classVar moves _ _ _ | global moves _ _ =>
      exact accessed _ _ moves
  | send _ _ few _ | superSend _ _ _ few _ =>
      change _ + ((Instruction.unpack (Instruction.packedOperand _ _)).2 + 1) = _ + 1
      rw [Instruction.unpack_packedOperand_count _ few, List.length_append, List.length_cons,
        List.length_cons]
      omega
  | makeArray small isCount =>
      change _ + Exec.elementCount (Int32.ofNat _) = _ + 1
      rw [Exec.elementCount_ofNat small, List.length_append, List.length_cons]
      omega
  | makeDictionary small isCount =>
      change _ + 2 * Exec.elementCount (Int32.ofNat _) = _ + 1
      rw [Exec.elementCount_ofNat small, List.length_append, List.length_cons]
      omega

/-- Compiled code has no jumps. -/
theorem Fits.notTarget {setting : Setting} {pool : List Constant} {instruction : Instruction}
    {before after : Layout} (fits : Fits setting pool instruction before after) :
    instruction.opcode.operandKind ≠ .target := by
  intro isTarget
  cases fits with
  | pushSimple isSimple =>
      rcases isSimple with rfl | rfl | rfl
      · cases isTarget
      · cases isTarget
      · cases isTarget
  | slot moves | outer moves _ _ | field moves _ | classVar moves _ _ _ | global moves _ _ =>
      cases moves with
      | load | store =>
          cases isTarget
  | _ =>
      cases isTarget

/-- The activation is the one that was started, further on.  Once it has got so many more operands,
its stack is as high as the code counts on. -/
structure Frame.Course (start : Frame) (waiting : Nat) (program : Frame) : Prop where
  same : program = { start with ip := program.ip, stack := program.stack }
  flows : ∃ layout, Flows .topLevel start.code.constants
      (start.code.code.toList.drop program.ip) layout [] ∧
    layout.length = program.stack.length + waiting

/-- The outermost activation is the program that was started.  It waits for an operand where it is
not alone. -/
inductive OnCourse (start : Frame) : List Frame → Prop
  | alone {program : Frame} : start.Course 0 program → OnCourse start [program]
  | below {top program : Frame} {above : List Frame} : start.Course 1 program →
      OnCourse start (top :: (above ++ [program]))

section Course

variable {start current program : Frame} {rest frames : List Frame}

theorem Frame.Course.code {waiting : Nat} (course : start.Course waiting program) :
    program.code = start.code := by
  rw [course.same]

theorem OnCourse.of_above {above : List Frame} (someAbove : above ≠ [])
    (course : start.Course 1 program) : OnCourse start (above ++ [program]) := by
  cases above with
  | nil =>
      exact (someAbove rfl).elim
  | cons top above =>
      exact .below course

/-- The program goes on with other operands at another place. -/
theorem Frame.Course.further {waiting later ip : Nat} {stack : List Value} {layout : Layout}
    (course : start.Course waiting program)
    (flows : Flows .topLevel start.code.constants (start.code.code.toList.drop ip) layout [])
    (height : layout.length = stack.length + later) :
    Frame.Course start later { program with ip, stack } := by
  refine ⟨?_, layout, flows, height⟩
  rw [course.same]

theorem Frame.Course.answered (course : start.Course 1 program) (value : Value) :
    Frame.Course start 0 { program with stack := value :: program.stack } := by
  obtain ⟨layout, flows, height⟩ := course.flows
  exact course.further flows height

/-- The program alone executes an instruction of its own. -/
theorem Frame.Course.leads {instruction : Instruction} (course : start.Course 0 program)
    (isNext : program.code.code[program.ip]? = some instruction)
    (leads : Exec.Leads instruction { program with ip := program.ip + 1 } [] frames) :
    OnCourse start frames := by
  obtain ⟨layout, flows, height⟩ := course.flows
  rw [course.code] at isNext
  obtain ⟨between, fits, further⟩ := flows.next isNext
  have heights := fits.height
  cases leads with
  | @now ip stack samePlace lengths =>
      obtain rfl := samePlace fits.notTarget
      refine .alone (course.further further ?_)
      change stack.length + _ = program.stack.length + _ at lengths
      omega
  | @later stack entered lengths =>
      refine .of_above (List.cons_ne_nil entered []) (course.further further ?_)
      change stack.length + 1 + _ = program.stack.length + _ at lengths
      omega

/-- What ends above the program leaves the program below it. -/
theorem exists_above {ended : Frame} {above ending below : List Frame} (someBelow : below ≠ [])
    (whole : above ++ [program] = ending ++ ended :: below) :
    ∃ remaining, below = remaining ++ [program] := by
  rcases List.eq_nil_or_concat below with none | ⟨remaining, last, rfl⟩
  · exact (someBelow none).elim
  · rw [List.concat_eq_append, ← List.cons_append, ← List.append_assoc] at whole
    cases (List.append_inj' whole rfl).2
    exact ⟨remaining, List.concat_eq_append⟩

theorem OnCourse.stepped (onCourse : OnCourse start (current :: rest))
    (stepped : Exec.Stepped current rest .running frames) : OnCourse start frames := by
  generalize isWhole : current :: rest = whole at onCourse
  cases onCourse with
  | alone course =>
      cases isWhole
      cases stepped with
      | onward isNext _ leads =>
          exact course.leads isNext leads
      | @completed ending below _ ended _ isCut _ completed =>
          cases completed with
          | answered isBelow _ =>
              have lengths := congrArg List.length isCut
              simp only [isBelow, List.length_append, List.length_cons, List.length_nil] at lengths
              omega
  | @below top program above course =>
      cases isWhole
      cases stepped with
      | onward _ _ leads =>
          cases leads with
          | now _ _ =>
              exact .below course
          | later entered _ =>
              exact .of_above (List.cons_ne_nil entered (_ :: above)) course
      | @completed ending below _ ended _ isCut _ completed =>
          cases completed with
          | @answered caller others _ isBelow answered =>
              subst isBelow
              rw [← List.cons_append] at isCut
              obtain ⟨remaining, isRemaining⟩ := exists_above (List.cons_ne_nil _ _) isCut
              cases remaining with
              | nil =>
                  cases isRemaining
                  cases answered with
                  | now value =>
                      exact .alone (course.answered value)
                  | later entered =>
                      exact .of_above (List.cons_ne_nil entered []) course
              | cons caller remaining =>
                  cases isRemaining
                  cases answered with
                  | now value =>
                      exact .below course
                  | later entered =>
                      exact .of_above (List.cons_ne_nil entered (caller :: remaining)) course

end Course

end Missive
