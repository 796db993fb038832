/-!
# Sessions

What is known at compile time about the programs compiled so far: the local variables of the top
level with their slots, and the shapes of the classes.  A session passed from one fragment to the
next lets later fragments refer to earlier ones.
-/

namespace Missive

/-- What is known about a class at compile time. -/
structure Shape where
  superclass : Option String
  /-- All fields of an instance in the order of their slots, the inherited ones first. -/
  fields : List String
  /-- The class variables that the class itself declares. -/
  classVars : List String
  deriving DecidableEq, Repr

/-- The names known at compile time. -/
structure Session where
  /-- The local variables of the top level; the slot of a variable is its position. -/
  locals : List String
  /-- The latest shape of every class by name. -/
  classes : List (String × Shape)
  deriving DecidableEq, Repr

/-- The class that exists from the start. -/
def rootClassName : String := "Object"

namespace Session

/-- A session in which nothing has been compiled yet. -/
def initial : Session := ⟨[], [(rootClassName, ⟨none, [], []⟩)]⟩

instance : Inhabited Session := ⟨initial⟩

/-- The slot of a variable of the top level. -/
def slot? (session : Session) (name : String) : Option Nat := session.locals.idxOf? name

/-- Declares a variable of the top level; one that is known keeps its slot. -/
def declare (session : Session) (name : String) : Session :=
  if session.locals.contains name then session
  else { session with locals := session.locals ++ [name] }

/-- The latest shape of a class. -/
def shape? (session : Session) (className : String) : Option Shape :=
  session.classes.lookup className

/-- Puts a shape in the place of the one that has the same name, or at the end. -/
def replaceShape (className : String) (shape : Shape) :
    List (String × Shape) → List (String × Shape)
  | [] => [(className, shape)]
  | entry :: rest =>
    if entry.1 = className then (className, shape) :: rest
    else entry :: replaceShape className shape rest

/-- Records the shape of a class. -/
def defineClass (session : Session) (className : String) (shape : Shape) : Session :=
  { session with classes := replaceShape className shape session.classes }

/-- Looks for a class variable in a class and the classes above it.  Each class passed takes one
step of the budget, since redefinitions can make the recorded names go round in a circle. -/
def classVarVisibleFrom (session : Session) (variableName : String) :
    (budget : Nat) → (className : String) → Bool
  | 0, _ => false
  | budget + 1, className =>
    match session.shape? className with
    | none => false
    | some shape =>
      shape.classVars.contains variableName ||
        match shape.superclass with
        | none => false
        | some superclass => session.classVarVisibleFrom variableName budget superclass

/-- The class or one of the known classes above it declares the class variable. -/
def classVarVisible (session : Session) (className variableName : String) : Bool :=
  session.classVarVisibleFrom variableName session.classes.length className

end Session

end Missive
