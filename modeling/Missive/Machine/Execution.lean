import Missive.Machine.Machine

/-!
# Execution of instructions

One step of a machine executes one instruction of the innermost activation.  A message to a
built-in value is answered in the same step; a method or a block becomes a new activation.  When
an activation completes, its value goes to the activation below, or to the loop that waits for
it.

A step that fails leaves the machine as it was when the fault arose.
-/

namespace Missive

/-- A computation on the machine that can fail; the state reached is kept either way. -/
abbrev Exec := EStateM Cause Machine

/-- What a step has led to. -/
inductive StepState where
  | running
  | finished (value : Value)
  deriving DecidableEq, Repr

namespace Exec

/-- Runs a computation on the objects. -/
def onStore {α : Type} (effect : Effect α) : Exec α := fun machine =>
  match effect machine.store with
  | .ok result store => .ok result { machine with store }
  | .error cause store => .error cause { machine with store }

/-- The innermost activation. -/
def frame : Exec Frame := do
  match (← get).frames with
  | frame :: _ => return frame
  | [] => throw .noProgram

/-- Changes the innermost activation. -/
def modifyFrame (change : Frame → Frame) : Exec Unit :=
  modify fun machine =>
    match machine.frames with
    | frame :: rest => { machine with frames := change frame :: rest }
    | [] => machine

/-! ## The stack of operands -/

/-- Pushes a value. -/
def push (value : Value) : Exec Unit := do
  let limit := (← get).config.maxStackDepth
  let current ← frame
  if limit ≤ current.stack.length then throw (.stackOverflow limit)
  modifyFrame fun frame => { frame with stack := value :: frame.stack }

/-- Pushes a value that may refer to a new object. -/
def pushTracked (value : Value) : Exec Unit := do
  modify fun machine => { machine with store := machine.store.track value }
  push value

/-- Pops a value. -/
def pop : Exec Value := do
  match (← frame).stack with
  | value :: rest =>
    modifyFrame fun frame => { frame with stack := rest }
    return value
  | [] => throw .stackUnderflow

/-- The value on top of the stack. -/
def peek : Exec Value := do
  match (← frame).stack with
  | value :: _ => return value
  | [] => throw .stackUnderflow

/-- Pops several values, the oldest first in the answer. -/
def popMany (count : Nat) : Exec (List Value) := do
  let stack := (← frame).stack
  let taken := stack.take count
  if taken.length < count then throw .stackUnderflow
  modifyFrame fun frame => { frame with stack := frame.stack.drop count }
  return taken.reverse

/-! ## Operands of instructions -/

/-- The index for which an operand stands; a negative operand stands for none. -/
def operandIndex? (operand : Int32) : Option Nat :=
  if operand < 0 then none else some operand.toInt.toNat

/-- The constant at an index of the running unit. -/
def constantAt? (index : Option Nat) : Exec (Option Constant) := do
  let constants := (← frame).code.constants
  return index.bind fun index => constants[index]?

/-- The name that the operand of an instruction selects. -/
def nameOperand (instruction : Instruction) : Exec String := do
  match ← constantAt? (operandIndex? instruction.operand) with
  | some (.string name) => return name
  | _ => throw (.invalidOperand instruction.opcode instruction.operand)

/-! ## Variables -/

/-- The answer of the arena, or the fault that a handle is stale. -/
def expectLive {α : Type} : Option α → Exec α
  | some result => return result
  | none => throw .staleContext

/-- Pushes a local variable of a context. -/
def loadSlot (context : ContextId) (slot : Nat) : Exec Unit := do
  let value ← expectLive ((← get).contexts.load? context slot)
  push value

/-- Stores the top of the stack in a local variable of a context. -/
def storeSlot (context : ContextId) (slot : Nat) (value : Value) : Exec Unit := do
  if (← get).contexts.isLive context then
    modify fun machine => { machine with contexts := machine.contexts.put context slot value }
  else throw .staleContext

/-- The context in which an outer variable lives, and its slot. -/
def outerSlot (instruction : Instruction) : Exec (ContextId × Nat) := do
  let (slot, depth) := Instruction.unpack instruction.operand
  match ← expectLive ((← get).contexts.resolve? (← frame).context depth) with
  | some target => return (target, slot)
  | none => throw (.invalidOperand instruction.opcode instruction.operand)

/-- The receiver as an instance: its identity, its class and its fields. -/
def receiverRecord : Exec (ObjectId × ObjectId × List Value) := do
  let receiver := (← frame).receiver
  let store := (← get).store
  match store.see receiver with
  | .record id classId fields => return (id, classId, fields)
  | _ => throw (.notAnInstance (store.className receiver))

/-- The fault that an instance has no such field. -/
def fieldFault (classId : ObjectId) (index : Nat) : Exec Cause := do
  let store := (← get).store
  return .fieldOutOfRange (store.nameOf classId) index (store.fieldCount classId)

/-- Pushes a field of the receiver. -/
def loadField (index : Nat) : Exec Unit := do
  let (_, classId, fields) ← receiverRecord
  match fields[index]? with
  | some value => push value
  | none => throw (← fieldFault classId index)

/-- Stores the top of the stack in a field of the receiver. -/
def storeField (index : Nat) : Exec Unit := do
  let (id, classId, fields) ← receiverRecord
  let value ← peek
  if index < fields.length then
    modify fun machine => { machine with store := machine.store.setField id index value }
  else throw (← fieldFault classId index)

/-- The class of the running method. -/
def owner (opcode : Opcode) : Exec ObjectId := do
  match (← frame).owner with
  | some id => return id
  | none => throw (.noEnclosingClass opcode)

/-- Pushes a class variable. -/
def loadClassVar (instruction : Instruction) : Exec Unit := do
  let name ← nameOperand instruction
  let id ← owner instruction.opcode
  match (← get).store.classVar? id name with
  | some value => push value
  | none => throw (.undefinedClassVariable name)

/-- Stores the top of the stack in a class variable. -/
def storeClassVar (instruction : Instruction) : Exec Unit := do
  let name ← nameOperand instruction
  let id ← owner instruction.opcode
  let value ← peek
  match (← get).store.classVarOwner? id name with
  | some (holder, definition) =>
    modify fun machine =>
      { machine with store := machine.store.setOwnClassVar holder definition name value }
  | none => throw (.undefinedClassVariable name)

/-- Pushes a global variable. -/
def loadGlobal (instruction : Instruction) : Exec Unit := do
  let name ← nameOperand instruction
  match (← get).globals.get? name with
  | some value => push value
  | none => throw (.undefinedGlobal name)

/-- Stores the top of the stack in a global variable. -/
def storeGlobal (instruction : Instruction) : Exec Unit := do
  let name ← nameOperand instruction
  let value ← peek
  modify fun machine => { machine with globals := machine.globals.set name value }

/-! ## Activations -/

/-- Starts an activation; its identity is new. -/
def enter (build : FrameId → Frame) : Exec Unit :=
  modify fun machine =>
    let number := machine.lastFrame + 1
    { machine with lastFrame := number, frames := build ⟨number⟩ :: machine.frames }

/-- Fails when no more activations may be under way. -/
def checkDepth : Exec Unit := do
  let machine ← get
  if machine.config.maxFrames ≤ machine.frames.length then
    throw (.callDepthExceeded machine.config.maxFrames)

/-- A new context. -/
def newContext (outer : Option ContextId) (locals : List Value) : Exec ContextId := do
  let (id, contexts) := (← get).contexts.alloc ⟨locals.toArray, outer⟩
  modify fun machine => { machine with contexts }
  return id

/-- How a method is called in reports. -/
def methodLabel (className : String) (classSide : Bool) (selector : Selector) : String :=
  className ++ (if classSide then " class>>" else ">>") ++ selector

/-- What the label of a block starts with. -/
def blockLabelStart : String := "[] in "

/-- Calls a method. -/
def callMethod (receiver : Value) (owner : ObjectId) (definition : ClassObject)
    (method : MethodDescriptor) (classSide : Bool) (arguments : List Value) : Exec Unit := do
  checkDepth
  let context ← newContext none arguments
  enter fun id =>
    { id, home := id, kind := .method, code := method.body, ip := 0, stack := [], context, receiver
      owner := some owner, classSide
      label := methodLabel definition.name classSide method.selector
      loop := none }

/-- Calls a block. -/
def callBlock (block : BlockRef) (arguments : List Value) (loop : Option Iteration) :
    Exec Unit := do
  let closure := block.closure
  if arguments.length ≠ closure.parameterCount then
    throw (.wrongArgumentCount (valueSelector arguments.length) closure.parameterCount
      arguments.length)
  checkDepth
  let context ← newContext (some closure.outer) arguments
  enter fun id =>
    { id, home := closure.home, kind := .block, code := closure.body, ip := 0, stack := [], context
      receiver := closure.receiver, owner := closure.owner, classSide := closure.classSide
      label := blockLabelStart ++ closure.origin
      loop }

/-- Writes a text.  Writing nothing always succeeds. -/
def write (text : String) : Exec Unit := do
  let output := (← get).output
  match output.refusal with
  | some reason => if text ≠ "" then throw (.output reason)
  | none =>
    modify fun machine =>
      { machine with output := { machine.output with written := machine.output.written ++ text } }

/-- Carries out what a message to a built-in value leads to. -/
def perform : Action → Exec Unit
  | .answer value => pushTracked value
  | .call block arguments loop => callBlock block arguments loop
  | .write text value => do
    write text
    pushTracked value

/-! ## Messages -/

/-- The number of arguments fits the selector. -/
def checkArgumentCount (selector : Selector) (given : Nat) : Exec Unit := do
  if selector.arity ≠ given then
    throw (.wrongArgumentCount selector selector.arity given)

/-- The universal response to a message, or the fault that the message is not understood. -/
def respondUniversally (receiver : Value) (selector : Selector) (arguments : List Value) :
    Exec Unit := do
  let store := (← get).store
  match store.universalResponse? receiver selector with
  | some response => perform (← onStore (response arguments))
  | none =>
    throw (.doesNotUnderstand (store.print receiver) (store.className receiver) selector)

/-- Sends a message. -/
def send (receiver : Value) (selector : Selector) (arguments : List Value) : Exec Unit := do
  checkArgumentCount selector arguments.length
  let store := (← get).store
  match store.builtinResponse? receiver selector with
  | some response => perform (← onStore (response arguments))
  | none =>
    match store.method? receiver selector with
    | some (owner, definition, method, classSide) =>
      callMethod receiver owner definition method classSide arguments
    | none => respondUniversally receiver selector arguments

/-- The method for a message from above a class. -/
def inheritedMethod? (store : Store) (owner : ObjectId) (classSide : Bool) (selector : Selector) :
    Option (ObjectId × ClassObject × MethodDescriptor) := do
  let definition ← store.class? owner
  let parent ← definition.superclass
  store.lookup classSide selector parent

/-- Sends a message with lookup above the class of the running method. -/
def superSend (receiver : Value) (selector : Selector) (arguments : List Value) : Exec Unit := do
  checkArgumentCount selector arguments.length
  let classSide := (← frame).classSide
  let id ← owner .superSend
  match inheritedMethod? (← get).store id classSide selector with
  | some (owner, definition, method) =>
    callMethod receiver owner definition method classSide arguments
  | none => respondUniversally receiver selector arguments

/-- Takes the selector, the arguments and the receiver of a message. -/
def takeMessage (instruction : Instruction) : Exec (Value × Selector × List Value) := do
  let (index, count) := Instruction.unpack instruction.operand
  match ← constantAt? (some index) with
  | some (.string selector) =>
    let arguments ← popMany count
    let receiver ← pop
    return (receiver, selector, arguments)
  | _ => throw (.invalidOperand instruction.opcode instruction.operand)

/-! ## Objects -/

/-- Pushes a constant; code and class descriptors are no values. -/
def pushConstant (instruction : Instruction) : Exec Unit := do
  let invalid := Cause.invalidOperand .pushConstant instruction.operand
  match ← constantAt? (operandIndex? instruction.operand) with
  | some (.int value) => push (.int value)
  | some (.float value) => push (.float value)
  | some (.string text) => push (.string text)
  | some (.bool value) => push (.bool value)
  | some .nil => push .nil
  | some (.block _) | some (.classDescriptor _) | none => throw invalid

/-- Pops a class and pushes a new instance. -/
def newInstance : Exec Unit := do
  let value ← pop
  let store := (← get).store
  match store.see value with
  | .classObject id _ =>
    let (record, extended) := store.newRecord id
    modify fun machine => { machine with store := extended }
    pushTracked (.ref record)
  | _ => throw (.typeMismatch "new" "class" (store.className value))

/-- The class that a descriptor names as superclass. -/
def superclassOf (descriptor : ClassDescriptor) : Exec (Option ObjectId) := do
  match descriptor.superclass with
  | none => return none
  | some name =>
    let machine ← get
    match machine.globals.class? machine.store name with
    | some id => return some id
    | none => throw (.unknownSuperclass descriptor.name name)

/-- Creates a class, binds it to its name and pushes it. -/
def defineClass (instruction : Instruction) : Exec Unit := do
  match ← constantAt? (operandIndex? instruction.operand) with
  | some (.classDescriptor descriptor) =>
    let superclass ← superclassOf descriptor
    let (id, store) := (← get).store.newClass descriptor superclass
    modify fun machine =>
      { machine with store, globals := machine.globals.set descriptor.name (.ref id) }
    pushTracked (.ref id)
  | some _ => throw (.invalidOperand instruction.opcode instruction.operand)
  | none => throw (.invalidOperand .pushConstant instruction.operand)

/-- The label that the blocks created in an activation refer to. -/
def origin (frame : Frame) : String :=
  match frame.kind with
  | .block =>
    if blockLabelStart.toList.isPrefixOf frame.label.toList then
      String.ofList (frame.label.toList.drop blockLabelStart.length)
    else frame.label
  | .method | .topLevel => frame.label

/-- Creates a block and pushes it. -/
def makeClosure (instruction : Instruction) : Exec Unit := do
  let (index, parameterCount) := Instruction.unpack instruction.operand
  match ← constantAt? (some index) with
  | some (.block body) =>
    let current ← frame
    let closure : Closure :=
      { body, parameterCount, outer := current.context, receiver := current.receiver
        owner := current.owner, classSide := current.classSide, home := current.home
        origin := origin current }
    let (id, store) := (← get).store.alloc (.block closure)
    modify fun machine => { machine with store }
    pushTracked (.ref id)
  | _ => throw (.invalidOperand instruction.opcode instruction.operand)

/-- Values in a row as pairs. -/
def pairs : List Value → List (Value × Value)
  | key :: value :: rest => (key, value) :: pairs rest
  | _ => []

/-- The number of elements that an operand asks for.  A negative operand asks for more than any
stack holds. -/
def elementCount (operand : Int32) : Nat := operand.toInt64.toUInt64.toNat

/-- Pops elements and pushes an array of them. -/
def makeArray (count : Nat) : Exec Unit := do
  let items ← popMany count
  let (id, store) := (← get).store.alloc (.array items)
  modify fun machine => { machine with store }
  pushTracked (.ref id)

/-- Pops keys and values and pushes a dictionary of them. -/
def makeDictionary (count : Nat) : Exec Unit := do
  let items ← popMany (2 * count)
  let entries ← onStore do settle (Entries.ofPairs (← get) (pairs items))
  let (id, extended) := (← get).store.alloc (.dictionary entries)
  modify fun machine => { machine with store := extended }
  pushTracked (.ref id)

/-! ## Returns -/

/-- Completes the innermost activation with a value. -/
def complete (value : Value) : Exec StepState := do
  match (← get).frames with
  | [] => throw .noProgram
  | done :: rest =>
    modify fun machine => { machine with frames := rest }
    if rest.isEmpty then
      modify fun machine => { machine with result := some value }
      return .finished value
    else
      match done.loop with
      | none => push value
      | some iteration => perform (← onStore (iteration.resume value))
      return .running

/-- The activations from the one with the given identity downward. -/
def unwind? (home : FrameId) : List Frame → Option (List Frame)
  | [] => none
  | frame :: rest => if frame.id = home then some (frame :: rest) else unwind? home rest

/-- Completes the method in which the running block was created; outside of a block, the running
activation. -/
def returnFromHome (value : Value) : Exec StepState := do
  let current ← frame
  if current.kind = .block then
    match unwind? current.home (← get).frames with
    | some frames => modify fun machine => { machine with frames }
    | none => throw .nonLocalReturnExpired
  complete value

/-! ## Instructions -/

/-- Goes on at another instruction. -/
def jump (operand : Int32) : Exec Unit :=
  modifyFrame fun frame => { frame with ip := elementCount operand }

/-- Goes on at another instruction if a popped truth value is false. -/
def jumpIfFalse (operand : Int32) : Exec Unit := do
  match ← pop with
  | .bool false => jump operand
  | .bool true => return
  | other =>
    throw (.typeMismatch "conditional jump" "boolean" ((← get).store.className other))

/-- Goes on after an instruction that does not complete an activation. -/
def andGoOn (effect : Exec Unit) : Exec StepState := do
  effect
  return .running

/-- Executes an instruction of the innermost activation. -/
def execute (instruction : Instruction) : Exec StepState :=
  let operand := instruction.operand
  match instruction.opcode with
  | .pushConstant => andGoOn (pushConstant instruction)
  | .pop => andGoOn do
    let _ ← pop
  | .dup => andGoOn do push (← peek)
  | .loadLocal => andGoOn do loadSlot (← frame).context (elementCount operand)
  | .storeLocal => andGoOn do
    let value ← peek
    storeSlot (← frame).context (elementCount operand) value
  | .loadOuter => andGoOn do
    let (context, slot) ← outerSlot instruction
    loadSlot context slot
  | .storeOuter => andGoOn do
    let (context, slot) ← outerSlot instruction
    let value ← peek
    storeSlot context slot value
  | .loadField => andGoOn (loadField (elementCount operand))
  | .storeField => andGoOn (storeField (elementCount operand))
  | .loadClassVar => andGoOn (loadClassVar instruction)
  | .storeClassVar => andGoOn (storeClassVar instruction)
  | .loadGlobal => andGoOn (loadGlobal instruction)
  | .storeGlobal => andGoOn (storeGlobal instruction)
  | .send => andGoOn do
    let (receiver, selector, arguments) ← takeMessage instruction
    send receiver selector arguments
  | .superSend => andGoOn do
    let (receiver, selector, arguments) ← takeMessage instruction
    superSend receiver selector arguments
  | .jump => andGoOn (jump operand)
  | .jumpIfFalse => andGoOn (jumpIfFalse operand)
  | .pushSelf => andGoOn do push (← frame).receiver
  | .pushNil => andGoOn (push .nil)
  | .pushTrue => andGoOn (push (.bool true))
  | .pushFalse => andGoOn (push (.bool false))
  | .newInstance => andGoOn newInstance
  | .defineClass => andGoOn (defineClass instruction)
  | .makeClosure => andGoOn (makeClosure instruction)
  | .makeArray => andGoOn (makeArray (elementCount operand))
  | .makeDictionary => andGoOn (makeDictionary (elementCount operand))
  | .return => do complete (← pop)
  | .nonLocalReturn => do returnFromHome (← pop)

/-! ## Steps -/

/-- Counts a step, and fails when there have been too many. -/
def countStep : Exec Unit := do
  modify fun machine => { machine with steps := machine.steps + 1 }
  let machine ← get
  match machine.config.maxSteps with
  | some limit => if limit < machine.steps then throw (.stepLimitExceeded limit)
  | none => return

/-- Collects contexts and objects when enough of them have come together. -/
def collectIfNeeded : Exec Unit := do
  modify fun machine =>
    if machine.nextCollection ≤ machine.contexts.live then machine.collectContexts else machine
  modify fun machine =>
    if machine.nextObjectCollection ≤ machine.store.trackedCount then machine.collectGarbage
    else machine

/-- Executes the next instruction.  Running off the end of the code returns the top of the
stack, or `nil` when the stack is empty. -/
def step : Exec StepState := do
  countStep
  collectIfNeeded
  let current ← frame
  match current.code.code[current.ip]? with
  | some instruction =>
    modifyFrame fun frame => { frame with ip := frame.ip + 1 }
    execute instruction
  | none => complete (current.stack.headD .nil)

end Exec

end Missive
