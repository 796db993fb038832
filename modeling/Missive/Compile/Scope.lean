import Missive.Code.Instruction
import Missive.Compile.CompileError
import Missive.Compile.Session
import Missive.Program.Tree

/-!
# Scopes and the meaning of names

A name in a program denotes a local variable of the body it stands in or of an enclosing block, a
field of the receiver, a class variable or a global variable, whichever is found first.  The body
of a method does not see the local variables of the top level.
-/

namespace Missive

/-- A body with its local variables; the slot of a variable is its position. -/
structure Scope where
  kind : BodyKind
  names : List String
  deriving DecidableEq, Repr

namespace Scope

/-- Declares a variable; one that is known keeps its slot. -/
def declare (scope : Scope) (name : String) : Scope :=
  if scope.names.contains name then scope else { scope with names := scope.names ++ [name] }

/-- The scope of a body with the given parameters. -/
def ofParameters (kind : BodyKind) (parameters : List String) : Scope :=
  parameters.foldl declare ⟨kind, []⟩

/-- The slot of a variable. -/
def slot? (scope : Scope) (name : String) : Option Nat := scope.names.idxOf? name

end Scope

/-- The class in whose methods a name stands. -/
structure Owner where
  className : String
  /-- All fields of an instance in the order of their slots. -/
  fields : List String
  /-- The method is one of the class itself and not of its instances. -/
  classSide : Bool
  deriving DecidableEq, Repr

/-- What surrounds an expression. -/
structure Surroundings where
  session : Session
  /-- The enclosing bodies, the innermost first. -/
  scopes : List Scope
  owner : Option Owner

/-- What a name denotes. -/
inductive Location where
  /-- A local variable of the innermost body. -/
  | slot (index : Nat)
  /-- A local variable of a body further out. -/
  | outer (slot depth : Nat)
  /-- A field of the receiver. -/
  | field (index : Nat)
  | classVar
  | global
  deriving DecidableEq, Repr

/-- The slot of a variable and how many bodies further out it is declared.  The search ends with
the first body that is not a block. -/
def findLocal (name : String) : (depth : Nat) → List Scope → Option (Nat × Nat)
  | _, [] => none
  | depth, scope :: outer =>
    match scope.slot? name with
    | some slot => some (slot, depth)
    | none => if scope.kind = .block then findLocal name (depth + 1) outer else none

/-- What a name that is no local variable denotes in a method of the class. -/
def Owner.locate (owner : Owner) (session : Session) (name : String) : Location :=
  match (if owner.classSide then none else owner.fields.idxOf? name) with
  | some index => .field index
  | none => if session.classVarVisible owner.className name then .classVar else .global

namespace Surroundings

/-- What a name denotes. -/
def resolve (surroundings : Surroundings) (name : String) : Except CompileError Location :=
  match findLocal name 0 surroundings.scopes with
  | some (slot, 0) => pure (.slot slot)
  | some (slot, depth + 1) =>
    if Instruction.maxPackedCount < depth + 1 then throw .blocksTooDeep
    else pure (.outer slot (depth + 1))
  | none =>
    match surroundings.owner with
    | some owner => pure (owner.locate surroundings.session name)
    | none => pure .global

/-- The surroundings inside a nested body. -/
def enter (surroundings : Surroundings) (scope : Scope) : Surroundings :=
  { surroundings with scopes := scope :: surroundings.scopes }

/-- The kind of the innermost body. -/
def kind (surroundings : Surroundings) : BodyKind :=
  match surroundings.scopes with
  | scope :: _ => scope.kind
  | [] => .topLevel

/-- Declares a local variable of the innermost body. -/
def declare (surroundings : Surroundings) (name : String) : Except CompileError Surroundings :=
  if isPseudoVariable name then throw (.invalidAssignment name)
  else
    match surroundings.scopes with
    | scope :: outer => pure { surroundings with scopes := scope.declare name :: outer }
    | [] => pure surroundings

/-- Declares local variables of the innermost body one after the other. -/
def declareAll (surroundings : Surroundings) : List String → Except CompileError Surroundings
  | [] => pure surroundings
  | name :: rest => do
    let extended ← surroundings.declare name
    extended.declareAll rest

end Surroundings

end Missive
