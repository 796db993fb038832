import Mathlib.Algebra.Group.Nat.Defs
import Missive.Proofs.Scopes.Passages

/-!
# Well-formed programs

Which programs may be compiled is said here without the compiler.  The expressions of a body are
listed, those inside of blocks left out, since a block is a body of its own.  Bodies stand in
surroundings: the names around them, the class of the method, and what the session knows at that
point of the program.  A program is well formed if every expression and every body in it meets a few
conditions, each of which can be read by itself.
-/

namespace Missive

/-! ## The expressions of a body -/

mutual

/-- The expression and the expressions in it, but nothing that stands in a block.  Where `super`
receives a message it is no expression of its own. -/
def Expr.parts : Expr → List Expr
  | .literal value => [.literal value]
  | .var name => [.var name]
  | .self => [.self]
  | .super => [.super]
  | .assign target value => .assign target value :: value.parts
  | .send receiver selector arguments =>
    .send receiver selector arguments ::
      ((if receiver.isSuper then [] else receiver.parts) ++ partsOfAll arguments)
  | .cascade receiver messages =>
    .cascade receiver messages :: (receiver.parts ++ partsOfMessages messages)
  | .block parameters body => [.block parameters body]
  | .array elements => .array elements :: partsOfAll elements
  | .dictionary entries => .dictionary entries :: partsOfEntries entries

/-- The same for expressions in a row. -/
def partsOfAll : List Expr → List Expr
  | [] => []
  | expr :: rest => expr.parts ++ partsOfAll rest

/-- The same for the messages of a cascade. -/
def partsOfMessages : List Message → List Expr
  | [] => []
  | ⟨_, arguments⟩ :: rest => partsOfAll arguments ++ partsOfMessages rest

/-- The same for the entries of a dictionary. -/
def partsOfEntries : List Entry → List Expr
  | [] => []
  | ⟨key, value⟩ :: rest => key.parts ++ value.parts ++ partsOfEntries rest

end

/-- The expressions in a statement.  Methods are bodies of their own. -/
def Stmt.parts : Stmt → List Expr
  | .expr value | .return value => value.parts
  | .declare _ | .define _ => []

/-- The expressions in the statements of a body. -/
def partsOfBody (statements : List Stmt) : List Expr := statements.flatMap Stmt.parts

theorem Expr.mem_parts (expr : Expr) : expr ∈ expr.parts := by
  cases expr <;> simp [Expr.parts]

/-! ## Surroundings -/

/-- The surroundings after further declarations in the innermost body. -/
def Surroundings.declareNames (surroundings : Surroundings) (names : List String) : Surroundings :=
  match surroundings.scopes with
  | scope :: outer => { surroundings with scopes := scope.declareAll names :: outer }
  | [] => surroundings

/-- The surroundings of the expressions in a body. -/
def Surroundings.within (surroundings : Surroundings) (statements : List Stmt) : Surroundings :=
  surroundings.declareNames (declaredFirst statements)

namespace Session

/-- The fields that a class inherits, by the latest shape of its superclass. -/
def inheritedFields (session : Session) (definition : ClassDef) : List String :=
  match definition.superclass.bind session.shape? with
  | some shape => shape.fields
  | none => []

/-- The shape that a definition gives to its class. -/
def shapeFor (session : Session) (definition : ClassDef) : Shape :=
  ⟨definition.superclass, session.inheritedFields definition ++ definition.fields,
    definition.classVars⟩

/-- The session after a statement of a program. -/
def past (session : Session) : Stmt → Session
  | .declare names => names.foldl declare session
  | .define definition => session.defineClass definition.name (session.shapeFor definition)
  | .expr _ | .return _ => session

/-- The session after the first statements of a program. -/
def pastAll (session : Session) (statements : List Stmt) : Session :=
  statements.foldl past session

/-- The surroundings in a method. -/
def inMethod (session : Session) (definition : ClassDef) (classSide : Bool)
    (parameters : List String) : Surroundings :=
  ⟨session.past (.define definition), [Scope.ofParameters .method parameters],
    some ⟨definition.name, (session.shapeFor definition).fields, classSide⟩⟩

end Session

namespace Program

variable (session : Session) (program : Program)

/-- The methods and the blocks of a program, with what surrounds them. -/
inductive HasBody : Surroundings → List Stmt → Prop
  | method {earlier later : Program} {definition : ClassDef} {classSide : Bool}
      {method : MethodDef} : program = earlier ++ .define definition :: later →
      method ∈ definition.methodsOn classSide →
      HasBody ((session.pastAll earlier).inMethod definition classSide method.parameters)
        method.body
  | blockAtTop {earlier later : Program} {statement : Stmt} {parameters : List String}
      {body : List Stmt} : program = earlier ++ statement :: later →
      .block parameters body ∈ statement.parts →
      HasBody ((session.pastAll earlier).topLevel.inBlock parameters) body
  | block {surroundings : Surroundings} {statements : List Stmt} {parameters : List String}
      {body : List Stmt} : HasBody surroundings statements →
      .block parameters body ∈ partsOfBody statements →
      HasBody ((surroundings.within statements).inBlock parameters) body

/-- The expressions of a program, with what surrounds them. -/
inductive Occurs : Surroundings → Expr → Prop
  | atTop {earlier later : Program} {statement : Stmt} {part : Expr} :
      program = earlier ++ statement :: later → part ∈ statement.parts →
      Occurs (session.pastAll earlier).topLevel part
  | inBody {surroundings : Surroundings} {statements : List Stmt} {part : Expr} :
      HasBody session program surroundings statements → part ∈ partsOfBody statements →
      Occurs (surroundings.within statements) part

end Program

/-! ## Places in the pool -/

/-- What a place in the pool of a unit is needed for. -/
inductive Demand where
  /-- A literal or a name, which shares its place with others that are the same. -/
  | literal (value : Literal)
  /-- The unit of a block or the descriptor of a class. -/
  | own
  deriving DecidableEq

/-- How many places a pool needs to have. -/
def poolSize (demands : List Demand) : Nat :=
  demands.count .own + (demands.filter (· ≠ .own)).dedup.length

namespace Surroundings

/-- What the use of a variable needs: the name of one that is neither local nor a field. -/
def nameDemands (surroundings : Surroundings) (name : String) : List Demand :=
  match surroundings.resolve name with
  | .ok .classVar | .ok .global => [.literal (.string name)]
  | .ok (.slot _) | .ok (.outer ..) | .ok (.field _) | .error _ => []

/-- What an expression needs in the pool, apart from the expressions in it. -/
def demands (surroundings : Surroundings) : Expr → List Demand
  | .literal (.int value) => [.literal (.int value)]
  | .literal (.float value) => [.literal (.float value)]
  | .literal (.string text) | .literal (.symbol text) => [.literal (.string text)]
  | .literal (.bool _) | .literal .nil => []
  | .var name => if isPseudoVariable name then [] else surroundings.nameDemands name
  | .assign target _ => surroundings.nameDemands target
  | .send _ selector _ => [.literal (.string selector)]
  | .cascade _ messages => messages.map fun message => .literal (.string message.selector)
  | .block .. => [.own]
  | .self | .super | .array _ | .dictionary _ => []

end Surroundings

/-- What a statement of a program needs in the pool. -/
def Stmt.demands (session : Session) : Stmt → List Demand
  | .define _ => [.own]
  | .declare _ => []
  | .expr value | .return value => value.parts.flatMap session.topLevel.demands

/-- What the statements of a program need in the pool. -/
def Program.demands (session : Session) : Program → List Demand
  | [] => []
  | statement :: rest => statement.demands session ++ Program.demands (session.past statement) rest

/-! ## The conditions -/

/-- The number of arguments or parameters that the selector asks for, and no more than an operand
can hold. -/
def Selector.Takes (selector : Selector) (given : Nat) : Prop :=
  given = selector.arity ∧ given ≤ 255

/-- Nothing stands in front of a declaration but other declarations. -/
def DeclarationsLead (statements : List Stmt) : Prop :=
  ∀ before names after, statements = before ++ .declare names :: after →
    ∀ statement ∈ before, ∃ others, statement = .declare others

/-- The variable that an expression reads or assigns. -/
def Expr.variableName? : Expr → Option String
  | .var name => if isPseudoVariable name then none else some name
  | .assign target _ => some target
  | _ => none

/-- Where the name is that of a local variable, this is declared at most 255 blocks further out. -/
def Surroundings.Near (surroundings : Surroundings) (name : String) : Prop :=
  ∀ slot depth, findLocal name 0 surroundings.scopes = some (slot, depth) → depth ≤ 255

/-- Where the name is that of a local variable of a body further out, the operand of an instruction
has room for its slot. -/
def Surroundings.Roomy (surroundings : Surroundings) (name : String) : Prop :=
  ∀ slot depth, findLocal name 0 surroundings.scopes = some (slot, depth + 1) → slot < 2 ^ 23

/-- The conditions on a program in a session. -/
structure Program.WellFormed (session : Session) (program : Program) : Prop where
  /-- `super` stands for nothing but the receiver of a message. -/
  superReceives : ∀ surroundings part, Occurs session program surroundings part →
    part.isSuper = false
  /-- It receives messages only in methods. -/
  superInMethods : ∀ surroundings receiver selector arguments,
    Occurs session program surroundings (.send receiver selector arguments) →
    receiver.isSuper = true → surroundings.owner.isSome = true
  /-- No method and no block defines a class. -/
  classesAtTop : ∀ surroundings statements, HasBody session program surroundings statements →
    ∀ definition, .define definition ∉ statements
  declarationsLead : DeclarationsLead program ∧
    ∀ surroundings statements, HasBody session program surroundings statements →
      DeclarationsLead statements
  namesDeclarable : (∀ names, .declare names ∈ program → ∀ name ∈ names,
      isPseudoVariable name = false) ∧
    ∀ surroundings statements, HasBody session program surroundings statements →
      ∀ names, .declare names ∈ statements → ∀ name ∈ names, isPseudoVariable name = false
  targetsAssignable : ∀ surroundings target value,
    Occurs session program surroundings (.assign target value) → isPseudoVariable target = false
  sendsFit : ∀ surroundings receiver selector arguments,
    Occurs session program surroundings (.send receiver selector arguments) →
    selector.Takes arguments.length
  messagesFit : ∀ surroundings receiver messages,
    Occurs session program surroundings (.cascade receiver messages) →
    ∀ message ∈ messages, Selector.Takes message.selector message.arguments.length
  methodsFit : ∀ definition, .define definition ∈ program → ∀ classSide,
    ∀ method ∈ definition.methodsOn classSide,
      Selector.Takes method.selector method.parameters.length
  cascadesNotEmpty : ∀ surroundings receiver messages,
    Occurs session program surroundings (.cascade receiver messages) → messages ≠ []
  parametersFit : ∀ surroundings parameters body,
    Occurs session program surroundings (.block parameters body) → parameters.length ≤ 255
  /-- A superclass is known to the session or defined earlier in the program. -/
  superclassesKnown : ∀ earlier definition later, program = earlier ++ .define definition :: later →
    ∀ superclass, definition.superclass = some superclass →
      (session.shape? superclass).isSome = true ∨
        ∃ other, .define other ∈ earlier ∧ other.name = superclass
  fieldsDistinct : ∀ earlier definition later, program = earlier ++ .define definition :: later →
    definition.fields.Nodup ∧
      ∀ field ∈ definition.fields, field ∉ (session.pastAll earlier).inheritedFields definition
  variablesNear : ∀ surroundings part, Occurs session program surroundings part →
    ∀ name, part.variableName? = some name → surroundings.Near name
  /-- The program itself, every method and every block finds room in the pool of its unit. -/
  poolsFit : poolSize (Program.demands session program) ≤ 2 ^ 23 ∧
    ∀ surroundings statements, HasBody session program surroundings statements →
      poolSize ((partsOfBody statements).flatMap (surroundings.within statements).demands) ≤ 2 ^ 23

/-- Every variable that is used further in than it is declared has a slot that an operand has room
for. -/
def Program.SlotsFit (session : Session) (program : Program) : Prop :=
  ∀ surroundings part, Occurs session program surroundings part →
    ∀ name, part.variableName? = some name → surroundings.Roomy name

end Missive
