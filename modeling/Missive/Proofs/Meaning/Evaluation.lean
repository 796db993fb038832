import Missive.Machine.Machine
import Missive.Proofs.Compile.Lowering

/-!
# The meaning of expressions and bodies

What an expression, a body or a program means without any code: its parts are evaluated from left
to right, and a variable is the one that its name denotes.  What a message does is left open.  An
oracle answers it, and every message that was sent is kept in order.

Only what the compiler accepts has a meaning.  Whatever else is evaluated fails because there is no
program.
-/

namespace Missive

/-- What a message can change. -/
structure World where
  contexts : Arena
  store : Store
  globals : Globals
  output : Output

/-- A message on its way. -/
structure Call where
  /-- The method is looked for above the class of the running method. -/
  toSuper : Bool
  receiver : Value
  selector : Selector
  arguments : List Value

/-- Answers messages or lets them fail, and changes the world at will. -/
abbrev Oracle := Call → World → Except Cause Value × World

/-- How far an evaluation has come. -/
structure Progress where
  world : World
  /-- The messages sent so far, the earliest first. -/
  calls : List Call

/-- An evaluation can fail; the progress made is kept either way. -/
abbrev Evaluation := EStateM Cause Progress

/-- What a running body knows of the activation that it runs in. -/
structure Site where
  context : ContextId
  receiver : Value
  owner : Option ObjectId
  classSide : Bool
  home : FrameId
  /-- The label to which the blocks created here refer. -/
  origin : String

namespace Evaluation

/-- Changes the world. -/
def change (update : World → World) : Evaluation Unit :=
  modify fun progress => { progress with world := update progress.world }

/-- Sends a message. -/
def ask (oracle : Oracle) (call : Call) : Evaluation Value := fun progress =>
  match oracle call progress.world with
  | (.ok value, world) => .ok value ⟨world, progress.calls ++ [call]⟩
  | (.error cause, world) => .error cause ⟨world, progress.calls ++ [call]⟩

/-- Creates an object that the collector looks after. -/
def create (build : Store → Object) : Evaluation Value := do
  let (id, store) := (← get).world.store.alloc (build (← get).world.store)
  change fun world => { world with store := store.track (.ref id) }
  return .ref id

/-- Goes on with an outcome, or crashes with it. -/
def settle {α : Type} : Except Crash α → Evaluation α
  | .ok result => return result
  | .error crash => throw (.crash crash)

/-- Creates a dictionary of pairs, whose keys are compared one after the other. -/
def createDictionary (pairs : List (Value × Value)) : Evaluation Value := do
  let entries ← settle (Entries.ofPairs (← get).world.store pairs)
  create fun _ => .dictionary entries

/-! ## Variables -/

/-- The answer of the arena, or the fault that a handle is stale. -/
def expectLive {α : Type} : Option α → Evaluation α
  | some result => return result
  | none => throw .staleContext

/-- The context in which an outer variable lives. -/
def outerContext (site : Site) (access : Access) (slot depth : Nat) : Evaluation ContextId := do
  match ← expectLive ((← get).world.contexts.resolve? site.context depth) with
  | some context => return context
  | none =>
    throw (.invalidOperand (access.opcode (.outer slot depth))
      (Instruction.packedOperand slot depth))

/-- The receiver as an instance: its identity, its class and its fields. -/
def receiverRecord (site : Site) : Evaluation (ObjectId × ObjectId × List Value) := do
  let store := (← get).world.store
  match store.see site.receiver with
  | .record id classId fields => return (id, classId, fields)
  | _ => throw (.notAnInstance (store.className site.receiver))

/-- The instance has no such field. -/
def missingField {α : Type} (classId : ObjectId) (index : Nat) : Evaluation α := do
  let store := (← get).world.store
  throw (.fieldOutOfRange (store.nameOf classId) index (store.fieldCount classId))

/-- The class of the running method. -/
def ownerOf (site : Site) (access : Access) : Evaluation ObjectId :=
  match site.owner with
  | some id => return id
  | none => throw (.noEnclosingClass (access.opcode .classVar))

/-- The value of a local variable. -/
def loadSlot (context : ContextId) (slot : Nat) : Evaluation Value := do
  expectLive ((← get).world.contexts.load? context slot)

/-- Stores the value of a local variable. -/
def storeSlot (context : ContextId) (slot : Nat) (value : Value) : Evaluation Unit := do
  if (← get).world.contexts.isLive context then
    change fun world => { world with contexts := world.contexts.put context slot value }
  else throw .staleContext

/-- The value of the variable at a location. -/
def load (site : Site) (name : String) : Location → Evaluation Value
  | .slot index => loadSlot site.context index
  | .outer slot depth => do
    let context ← outerContext site .load slot depth
    loadSlot context slot
  | .field index => do
    let (_, classId, fields) ← receiverRecord site
    match fields[index]? with
    | some value => return value
    | none => missingField classId index
  | .classVar => do
    let id ← ownerOf site .load
    match (← get).world.store.classVar? id name with
    | some value => return value
    | none => throw (.undefinedClassVariable name)
  | .global => do
    match (← get).world.globals.get? name with
    | some value => return value
    | none => throw (.undefinedGlobal name)

/-- Stores a value in the variable at a location. -/
def store (site : Site) (name : String) (value : Value) : Location → Evaluation Unit
  | .slot index => storeSlot site.context index value
  | .outer slot depth => do
    let context ← outerContext site .store slot depth
    storeSlot context slot value
  | .field index => do
    let (id, classId, fields) ← receiverRecord site
    if index < fields.length then
      change fun world => { world with store := world.store.setField id index value }
    else missingField classId index
  | .classVar => do
    let id ← ownerOf site .store
    match (← get).world.store.classVarOwner? id name with
    | some (holder, definition) =>
      change fun world =>
        { world with store := world.store.setOwnClassVar holder definition name value }
    | none => throw (.undefinedClassVariable name)
  | .global => change fun world => { world with globals := world.globals.set name value }

end Evaluation

/-! ## Expressions -/

/-- The value of a literal. -/
def Literal.value : Literal → Value
  | .int value => .int value
  | .float value => .float value
  | .string text => .string text
  | .symbol name => .string name
  | .bool value => .bool value
  | .nil => .nil

/-- Uses the variable that a name denotes. -/
def Surroundings.withLocation {α : Type} (surroundings : Surroundings) (name : String)
    (use : Location → Evaluation α) : Evaluation α :=
  match surroundings.resolve name with
  | .ok location => use location
  | .error _ => throw .noProgram

/-- What a name denotes. -/
def evaluateName (surroundings : Surroundings) (site : Site) (name : String) : Evaluation Value :=
  if name = "self" ∨ name = "super" then return site.receiver
  else if name = "nil" then return .nil
  else if name = "true" then return .bool true
  else if name = "false" then return .bool false
  else surroundings.withLocation name (Evaluation.load site name)

/-- The block that is created from parameters and a body. -/
def evaluateBlock (surroundings : Surroundings) (site : Site) (parameters : List String)
    (body : List Stmt) : Evaluation Value :=
  match lowerStatements (surroundings.inBlock parameters) true body .empty with
  | .ok (_, code) =>
    Evaluation.create fun _ =>
      .block
        { body := code, parameterCount := parameters.length, outer := site.context
          receiver := site.receiver, owner := site.owner, classSide := site.classSide
          home := site.home, origin := site.origin }
  | .error _ => throw .noProgram

mutual

/-- The value of an expression. -/
def evaluateExpr (oracle : Oracle) (surroundings : Surroundings) (site : Site) :
    Expr → Evaluation Value
  | .literal literal => return literal.value
  | .var name => evaluateName surroundings site name
  | .self | .super => return site.receiver
  | .assign target expr => do
    let value ← evaluateExpr oracle surroundings site expr
    surroundings.withLocation target (Evaluation.store site target value)
    return value
  | .send receiver selector arguments => do
    let target ← evaluateExpr oracle surroundings site receiver
    let values ← evaluateExprs oracle surroundings site arguments
    Evaluation.ask oracle ⟨receiver.isSuper, target, selector, values⟩
  | .cascade receiver messages => do
    let target ← evaluateExpr oracle surroundings site receiver
    evaluateMessages oracle surroundings site target messages
    return target
  | .block parameters body => evaluateBlock surroundings site parameters body
  | .array elements => do
    let values ← evaluateExprs oracle surroundings site elements
    Evaluation.create fun _ => .array values
  | .dictionary entries => do
    let pairs ← evaluateEntries oracle surroundings site entries
    Evaluation.createDictionary pairs

/-- The values of expressions in order. -/
def evaluateExprs (oracle : Oracle) (surroundings : Surroundings) (site : Site) :
    List Expr → Evaluation (List Value)
  | [] => return []
  | expr :: rest => do
    let value ← evaluateExpr oracle surroundings site expr
    let values ← evaluateExprs oracle surroundings site rest
    return value :: values

/-- Sends the messages of a cascade in order. -/
def evaluateMessages (oracle : Oracle) (surroundings : Surroundings) (site : Site)
    (target : Value) : List Message → Evaluation Unit
  | [] => return
  | ⟨selector, arguments⟩ :: rest => do
    let values ← evaluateExprs oracle surroundings site arguments
    let _ ← Evaluation.ask oracle ⟨false, target, selector, values⟩
    evaluateMessages oracle surroundings site target rest

/-- The keys and values of dictionary entries in order. -/
def evaluateEntries (oracle : Oracle) (surroundings : Surroundings) (site : Site) :
    List Entry → Evaluation (List (Value × Value))
  | [] => return []
  | ⟨key, value⟩ :: rest => do
    let first ← evaluateExpr oracle surroundings site key
    let second ← evaluateExpr oracle surroundings site value
    let pairs ← evaluateEntries oracle surroundings site rest
    return (first, second) :: pairs

end

/-! ## Bodies -/

/-- How a body ends. -/
structure Ending where
  /-- A return statement in a block also ends the method in which the block was created. -/
  fromHome : Bool
  value : Value

/-- The statements of a nested body: the first return statement, or else the last statement, gives
the value.  Without either, a method answers its receiver and any other body `nil`. -/
def evaluateBody (oracle : Oracle) (site : Site) : Surroundings → List Stmt → Evaluation Ending
  | surroundings, [] =>
    return ⟨false, if surroundings.kind = .method then site.receiver else .nil⟩
  | surroundings, .declare names :: rest =>
    match surroundings.declareAll names with
    | .ok extended => evaluateBody oracle site extended rest
    | .error _ => throw .noProgram
  | _, .define _ :: _ => throw .noProgram
  | surroundings, .expr expr :: rest => do
    let value ← evaluateExpr oracle surroundings site expr
    if rest.isEmpty then return ⟨false, value⟩
    else evaluateBody oracle site surroundings rest
  | surroundings, .return expr :: _ => do
    let value ← evaluateExpr oracle surroundings site expr
    return ⟨surroundings.kind = .block, value⟩

/-! ## Programs -/

/-- The class that a descriptor names as superclass. -/
def evaluateSuperclass (descriptor : ClassDescriptor) : Evaluation (Option ObjectId) := do
  match descriptor.superclass with
  | none => return none
  | some name =>
    let world := (← get).world
    match world.globals.class? world.store name with
    | some id => return some id
    | none => throw (.unknownSuperclass descriptor.name name)

/-- Creates a class and binds it to its name; the class is the value. -/
def evaluateClass (descriptor : ClassDescriptor) : Evaluation Value := do
  let superclass ← evaluateSuperclass descriptor
  let (id, store) := (← get).world.store.newClass descriptor superclass
  Evaluation.change fun world =>
    { world with
      store := store.track (.ref id)
      globals := world.globals.set descriptor.name (.ref id) }
  return .ref id

/-- The statements of a program, which may also define classes. -/
def evaluateProgram (oracle : Oracle) (site : Site) : Session → Program → Evaluation Ending
  | _, [] => return ⟨false, .nil⟩
  | session, .declare names :: rest =>
    match session.declareAll names with
    | (extended, .ok _) => evaluateProgram oracle site extended rest
    | (_, .error _) => throw .noProgram
  | session, .define definition :: rest =>
    match lowerClass session definition with
    | (extended, .ok descriptor) => do
      let value ← evaluateClass descriptor
      if rest.isEmpty then return ⟨false, value⟩
      else evaluateProgram oracle site extended rest
    | (_, .error _) => throw .noProgram
  | session, .expr expr :: rest => do
    let value ← evaluateExpr oracle session.topLevel site expr
    if rest.isEmpty then return ⟨false, value⟩
    else evaluateProgram oracle site session rest
  | session, .return expr :: _ => do
    let value ← evaluateExpr oracle session.topLevel site expr
    return ⟨false, value⟩

/-! ## What operands can hold -/

/-- An operand can hold the location. -/
def Location.fits : Location → Bool
  | .slot index | .field index => decide (index < 0x80000000)
  | .outer index _ => decide (index ≤ Instruction.maxPackedIndex)
  | .classVar | .global => true

/-- An operand can hold where the variable is. -/
def Surroundings.holds (surroundings : Surroundings) (name : String) : Bool :=
  match surroundings.resolve name with
  | .ok location => location.fits
  | .error _ => true

mutual

/-- Operands can hold the places of the variables in the expression and the sizes of its
collections. -/
def Expr.operandsFit (surroundings : Surroundings) : Expr → Bool
  | .literal _ | .self | .super | .block .. => true
  | .var name => surroundings.holds name
  | .assign target value => value.operandsFit surroundings && surroundings.holds target
  | .send receiver _ arguments =>
    receiver.operandsFit surroundings && operandsFitInAll surroundings arguments
  | .cascade receiver messages =>
    receiver.operandsFit surroundings && operandsFitInMessages surroundings messages
  | .array elements =>
    decide (elements.length < 0x80000000) && operandsFitInAll surroundings elements
  | .dictionary entries =>
    decide (entries.length < 0x80000000) && operandsFitInEntries surroundings entries

/-- The same for expressions in a row. -/
def operandsFitInAll (surroundings : Surroundings) : List Expr → Bool
  | [] => true
  | expr :: rest => expr.operandsFit surroundings && operandsFitInAll surroundings rest

/-- The same for the messages of a cascade. -/
def operandsFitInMessages (surroundings : Surroundings) : List Message → Bool
  | [] => true
  | ⟨_, arguments⟩ :: rest =>
    operandsFitInAll surroundings arguments && operandsFitInMessages surroundings rest

/-- The same for the entries of a dictionary. -/
def operandsFitInEntries (surroundings : Surroundings) : List Entry → Bool
  | [] => true
  | ⟨key, value⟩ :: rest =>
    key.operandsFit surroundings && value.operandsFit surroundings &&
      operandsFitInEntries surroundings rest

end

/-- The same for the statements of a nested body. -/
def operandsFitInBody : Surroundings → List Stmt → Bool
  | _, [] | _, .define _ :: _ => true
  | surroundings, .declare names :: rest =>
    match surroundings.declareAll names with
    | .ok extended => operandsFitInBody extended rest
    | .error _ => true
  | surroundings, .expr value :: rest | surroundings, .return value :: rest =>
    value.operandsFit surroundings && operandsFitInBody surroundings rest

/-- The same for the statements of a program. -/
def operandsFitInProgram : Session → Program → Bool
  | _, [] => true
  | session, .declare names :: rest => operandsFitInProgram (session.declareAll names).1 rest
  | session, .define definition :: rest =>
    operandsFitInProgram (lowerClass session definition).1 rest
  | session, .expr value :: rest | session, .return value :: rest =>
    value.operandsFit session.topLevel && operandsFitInProgram session rest

end Missive
