import Missive.Code.CodeUnit
import Missive.Compile.Scope

/-!
# Lowering programs to code

Every expression becomes code that leaves its value on the stack and nothing else.  A body
becomes a unit that ends with a return: of the value of its last statement, or of `self` for an
empty method and of `nil` for any other empty body.

Expressions only read the session.  The statements of a program change it where they declare
variables and define classes, and `lowerProgram` answers the session that it has reached even
where it fails.
-/

namespace Missive

/-- Code under construction is a unit that grows at its end. -/
abbrev Lower := StateT CodeUnit (Except CompileError)

/-- Appends an instruction. -/
def emit (instruction : Instruction) : Lower Unit :=
  modify fun unit => { unit with code := unit.code.push instruction }

/-- Appends an instruction whose operand holds an index and a count. -/
def emitPacked (opcode : Opcode) (index count : Nat) : Lower Unit :=
  match Instruction.pack index count with
  | .ok operand => emit ⟨opcode, operand⟩
  | .error crash => throw (.crash crash)

/-- The index of a constant in the pool.  A literal that is in the pool already is shared. -/
def addConstant (constant : Constant) : Lower Nat := do
  let unit ← get
  match unit.constants.findIdx? constant.sameLiteral with
  | some index => return index
  | none =>
    if Instruction.maxPackedIndex < unit.constants.length then throw .tooManyConstants
    set { unit with constants := unit.constants ++ [constant] }
    return unit.constants.length

/-- The index of a name in the pool. -/
def addName (name : String) : Lower Nat := addConstant (.string name)

/-- The number of arguments fits the selector and the operand of an instruction. -/
def checkArity (selector : Selector) (given : Nat) : Except CompileError Unit :=
  if Instruction.maxPackedCount < given then throw (.tooManyArguments selector given)
  else if selector.arity ≠ given then throw (.arityMismatch selector selector.arity given)
  else pure ()

/-- Pushes the value of a literal. -/
def lowerLiteral : Literal → Lower Unit
  | .bool true => emit (.bare .pushTrue)
  | .bool false => emit (.bare .pushFalse)
  | .nil => emit (.bare .pushNil)
  | .int value => do emit (.indexed .pushConstant (← addConstant (.int value)))
  | .float value => do emit (.indexed .pushConstant (← addConstant (.float value)))
  | .string text => do emit (.indexed .pushConstant (← addConstant (.string text)))
  | .symbol name => do emit (.indexed .pushConstant (← addConstant (.string name)))

/-! ## Variables -/

/-- The two ways to use a variable. -/
inductive Access where
  | load
  | store
  deriving DecidableEq, Repr

/-- The operation that uses a variable at a location. -/
def Access.opcode : Access → Location → Opcode
  | .load, .slot _ => .loadLocal
  | .load, .outer .. => .loadOuter
  | .load, .field _ => .loadField
  | .load, .classVar => .loadClassVar
  | .load, .global => .loadGlobal
  | .store, .slot _ => .storeLocal
  | .store, .outer .. => .storeOuter
  | .store, .field _ => .storeField
  | .store, .classVar => .storeClassVar
  | .store, .global => .storeGlobal

/-- Uses the variable that a name denotes. -/
def lowerAccess (surroundings : Surroundings) (access : Access) (name : String) :
    Lower Unit := do
  let location ← surroundings.resolve name
  let opcode := access.opcode location
  match location with
  | .slot index | .field index => emit (.indexed opcode index)
  | .outer slot depth => emitPacked opcode slot depth
  | .classVar | .global => do emit (.indexed opcode (← addName name))

/-- Pushes what a name denotes. -/
def lowerName (surroundings : Surroundings) (name : String) : Lower Unit :=
  if name = "self" then emit (.bare .pushSelf)
  else if name = "super" then throw .bareSuper
  else if name = "nil" then lowerLiteral .nil
  else if name = "true" then lowerLiteral (.bool true)
  else if name = "false" then lowerLiteral (.bool false)
  else lowerAccess surroundings .load name

/-! ## Bodies -/

/-- What follows the value of a statement: the last one is returned and any other dropped. -/
def emitAfterStatement (isLast : Bool) : Lower Unit :=
  emit (.bare (if isLast then .return else .pop))

/-- The operation of a return statement in a body. -/
def returnOpcode (kind : BodyKind) : Opcode :=
  match kind with
  | .block => .nonLocalReturn
  | .method | .topLevel => .return

/-- The code of a body without statements. -/
def emitEmptyBody (kind : BodyKind) : Lower Unit := do
  match kind with
  | .method => emit (.bare .pushSelf)
  | .topLevel | .block => emit (.bare .pushNil)
  emit (.bare .return)

/-- The name that a report of a late declaration shows. -/
def declaredName (names : List String) : String := names.headD ""

mutual

/-- Pushes the value of an expression. -/
def lowerExpr (surroundings : Surroundings) : Expr → Lower Unit
  | .literal value => lowerLiteral value
  | .var name => lowerName surroundings name
  | .self => emit (.bare .pushSelf)
  | .super => throw .bareSuper
  | .assign target value => do
    if isPseudoVariable target then throw (.invalidAssignment target)
    lowerExpr surroundings value
    lowerAccess surroundings .store target
  | .send receiver selector arguments => do
    checkArity selector arguments.length
    if receiver.isSuper then
      if surroundings.owner.isNone then throw .superOutsideMethod
      emit (.bare .pushSelf)
    else lowerExpr surroundings receiver
    lowerExprs surroundings arguments
    let index ← addName selector
    emitPacked (if receiver.isSuper then .superSend else .send) index arguments.length
  | .cascade receiver messages => do
    if messages.isEmpty then throw .emptyCascade
    if receiver.isSuper then throw .superCascade
    lowerExpr surroundings receiver
    lowerMessages surroundings messages
  | .block parameters body => do
    if Instruction.maxPackedCount < parameters.length then
      throw (.tooManyArguments "<block>" parameters.length)
    let inside := surroundings.enter (Scope.ofParameters .block parameters)
    let (_, unit) ← (lowerStatements inside true body).run CodeUnit.empty
    let index ← addConstant (.block unit)
    emitPacked .makeClosure index parameters.length
  | .array elements => do
    lowerExprs surroundings elements
    emit (.indexed .makeArray elements.length)
  | .dictionary entries => do
    lowerEntries surroundings entries
    emit (.indexed .makeDictionary entries.length)

/-- Pushes the values of expressions in order. -/
def lowerExprs (surroundings : Surroundings) : List Expr → Lower Unit
  | [] => return
  | expr :: rest => do
    lowerExpr surroundings expr
    lowerExprs surroundings rest

/-- Sends the messages of a cascade to the value on the stack and drops their results. -/
def lowerMessages (surroundings : Surroundings) : List Message → Lower Unit
  | [] => return
  | ⟨selector, arguments⟩ :: rest => do
    checkArity selector arguments.length
    emit (.bare .dup)
    lowerExprs surroundings arguments
    let index ← addName selector
    emitPacked .send index arguments.length
    emit (.bare .pop)
    lowerMessages surroundings rest

/-- Pushes the keys and values of dictionary entries in order. -/
def lowerEntries (surroundings : Surroundings) : List Entry → Lower Unit
  | [] => return
  | ⟨key, value⟩ :: rest => do
    lowerExpr surroundings key
    lowerExpr surroundings value
    lowerEntries surroundings rest

/-- The statements of a nested body.  `leading` holds until the first statement that is no
declaration. -/
def lowerStatements (surroundings : Surroundings) (leading : Bool) : List Stmt → Lower Unit
  | [] => if leading then emitEmptyBody surroundings.kind else return
  | .declare names :: rest => do
    if leading then lowerStatements (← surroundings.declareAll names) true rest
    else throw (.lateDeclaration (declaredName names))
  | .define definition :: _ => throw (.classInBody definition.name)
  | .expr value :: rest => do
    lowerExpr surroundings value
    emitAfterStatement rest.isEmpty
    lowerStatements surroundings false rest
  | .return value :: rest => do
    lowerExpr surroundings value
    emit (.bare (returnOpcode surroundings.kind))
    lowerStatements surroundings false rest

end

/-! ## Classes -/

/-- The unit of a method with its selector and parameters. -/
def lowerMethod (session : Session) (owner : Owner) (method : MethodDef) :
    Except CompileError MethodDescriptor := do
  checkArity method.selector method.parameters.length
  let scope := Scope.ofParameters .method method.parameters
  let (_, body) ← (lowerStatements ⟨session, [scope], some owner⟩ true method.body).run
    CodeUnit.empty
  return ⟨method.selector, method.parameters, body⟩

/-- The fields of an instance: the inherited ones and then the new ones, each only once. -/
def extendFields (className : String) (fields : List String) :
    (added : List String) → Except CompileError (List String)
  | [] => pure fields
  | field :: rest =>
    if fields.contains field then throw (.duplicateField className field)
    else extendFields className (fields ++ [field]) rest

/-- The shape of the class that a definition describes. -/
def shapeOf (session : Session) (definition : ClassDef) : Except CompileError Shape := do
  let inherited ←
    match definition.superclass with
    | none => pure []
    | some superclass =>
      match session.shape? superclass with
      | some shape => pure shape.fields
      | none => throw (.unknownSuperclass definition.name superclass)
  let fields ← extendFields definition.name inherited definition.fields
  return ⟨definition.superclass, fields, definition.classVars⟩

/-- The methods of a class whose shape is recorded in the session. -/
def lowerMethods (session : Session) (definition : ClassDef) (fields : List String) :
    Except CompileError ClassDescriptor := do
  let methods ← definition.methods.mapM (lowerMethod session ⟨definition.name, fields, false⟩)
  let classMethods ←
    definition.classMethods.mapM (lowerMethod session ⟨definition.name, fields, true⟩)
  return ⟨definition.name, definition.superclass, definition.fields, definition.classVars,
    methods, classMethods⟩

/-- The descriptor of a class.  The shape is recorded before the methods are lowered, so that
they see the class variables of their own class. -/
def lowerClass (session : Session) (definition : ClassDef) :
    Session × Except CompileError ClassDescriptor :=
  match shapeOf session definition with
  | .error error => (session, .error error)
  | .ok shape =>
    let extended := session.defineClass definition.name shape
    (extended, lowerMethods extended definition shape.fields)

/-! ## Programs -/

namespace Session

/-- Declares variables of the top level one after the other. -/
def declareAll (session : Session) : List String → Session × Except CompileError Unit
  | [] => (session, .ok ())
  | name :: rest =>
    if isPseudoVariable name then (session, .error (.invalidAssignment name))
    else (session.declare name).declareAll rest

/-- The surroundings of a statement of a program. -/
def topLevel (session : Session) : Surroundings :=
  ⟨session, [⟨.topLevel, session.locals⟩], none⟩

end Session

/-- Appends the instruction that defines a class. -/
def emitClass (descriptor : ClassDescriptor) : Lower Unit := do
  emit (.indexed .defineClass (← addConstant (.classDescriptor descriptor)))

/-- The statements of a program after its declarations, or from its start as long as `leading`
holds.  Answers the session reached together with the unit or the error. -/
def lowerProgramFrom (leading : Bool) (session : Session) (unit : CodeUnit) :
    Program → Session × Except CompileError CodeUnit
  | [] => (session, (if leading then emitEmptyBody .topLevel else pure ()).run unit |>.map (·.2))
  | .declare names :: rest =>
    if leading then
      match session.declareAll names with
      | (extended, .ok _) => lowerProgramFrom true extended unit rest
      | (extended, .error error) => (extended, .error error)
    else (session, .error (.lateDeclaration (declaredName names)))
  | .define definition :: rest =>
    match lowerClass session definition with
    | (extended, .error error) => (extended, .error error)
    | (extended, .ok descriptor) =>
      match (do emitClass descriptor; emitAfterStatement rest.isEmpty).run unit with
      | .ok (_, grown) => lowerProgramFrom false extended grown rest
      | .error error => (extended, .error error)
  | .expr value :: rest =>
    match (do lowerExpr session.topLevel value; emitAfterStatement rest.isEmpty).run unit with
    | .ok (_, grown) => lowerProgramFrom false session grown rest
    | .error error => (session, .error error)
  | .return value :: rest =>
    match (do lowerExpr session.topLevel value; emit (.bare .return)).run unit with
    | .ok (_, grown) => lowerProgramFrom false session grown rest
    | .error error => (session, .error error)

namespace Session

/-- Lowers a program and answers the session reached, also where the program is refused. -/
def lower (session : Session) (program : Program) : Session × Except CompileError CodeUnit :=
  lowerProgramFrom true session CodeUnit.empty program

/-- Compiles one fragment of a session.  The session changes only where the fragment is
accepted. -/
def compile (session : Session) (fragment : Program) : Session × Except CompileError CodeUnit :=
  match session.lower fragment with
  | (extended, .ok unit) => (extended, .ok unit)
  | (_, .error error) => (session, .error error)

end Session

/-- Compiles a program by itself. -/
def Program.compile (program : Program) : Except CompileError CodeUnit :=
  (Session.initial.compile program).2

end Missive
