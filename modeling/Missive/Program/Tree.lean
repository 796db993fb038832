import Missive.Program.Literal
import Missive.Program.Selector

/-!
# Programs

A program is a list of statements.  Expressions, statements and definitions refer to each other:
a block is an expression whose body is a list of statements, and a class definition is a
statement whose methods have bodies.
-/

namespace Missive

mutual

/-- An expression, which always has one value. -/
inductive Expr where
  | literal (value : Literal)
  /-- A variable: a local, a field, a class variable or a global, looked for in that order. -/
  | var (name : String)
  /-- The receiver of the running method. -/
  | self
  /-- Stands for the receiver where lookup shall start above the class of the method. -/
  | super
  /-- Stores a value in a variable; its value is the value stored. -/
  | assign (target : String) (value : Expr)
  | send (receiver : Expr) (selector : Selector) (arguments : List Expr)
  /-- Several messages to one receiver; its value is the receiver. -/
  | cascade (receiver : Expr) (messages : List Message)
  | block (parameters : List String) (body : List Stmt)
  | array (elements : List Expr)
  | dictionary (entries : List Entry)

/-- One message of a cascade. -/
structure Message where
  selector : Selector
  arguments : List Expr

/-- One entry of a dictionary expression. -/
structure Entry where
  key : Expr
  value : Expr

/-- A statement of a body. -/
inductive Stmt where
  | expr (value : Expr)
  /-- Answers a value from the method, or from the program, that the statement stands in. -/
  | return (value : Expr)
  /-- Declares local variables; declarations come first in a body. -/
  | declare (names : List String)
  /-- Defines a class; only the statements of a program itself may do so. -/
  | define (definition : ClassDef)

/-- The definition of a class. -/
structure ClassDef where
  name : String
  /-- A class without a superclass starts a hierarchy of its own. -/
  superclass : Option String
  /-- The fields that instances have in addition to the inherited ones. -/
  fields : List String
  classVars : List String
  methods : List MethodDef
  classMethods : List MethodDef

/-- The definition of a method. -/
structure MethodDef where
  selector : Selector
  parameters : List String
  body : List Stmt

end

instance : Inhabited Expr := ⟨.literal .nil⟩

/-- A program, or one fragment of a session. -/
abbrev Program := List Stmt

/-- The kinds of bodies in which statements stand. -/
inductive BodyKind where
  | topLevel
  | method
  | block
  deriving DecidableEq, Repr, Inhabited

/-- What an expression is called in messages to the programmer. -/
def Expr.description : Expr → String
  | .literal _ => "literal"
  | .var _ => "variable"
  | .self => "self"
  | .super => "super"
  | .assign .. => "assignment"
  | .send .. => "message send"
  | .cascade .. => "cascade"
  | .block .. => "block"
  | .array _ => "array"
  | .dictionary _ => "dictionary"

/-- What a statement is called in messages to the programmer. -/
def Stmt.description : Stmt → String
  | .expr value => value.description
  | .return _ => "return"
  | .declare _ => "declaration"
  | .define _ => "class"

/-- The names that always have the same meaning and cannot be assigned to. -/
def isPseudoVariable (name : String) : Bool :=
  name == "self" || name == "super" || name == "nil" || name == "true" || name == "false"

/-- The expression denotes the receiver with lookup above the class of the method. -/
def Expr.isSuper : Expr → Bool
  | .super => true
  | .var name => name == "super"
  | _ => false

end Missive
