import Missive.Code.Crash
import Missive.Program.Selector

/-!
# Errors of compilation

The reasons for which a program is refused, and the texts that report them.  Compilation stops
at the first error.  The compiler can also crash; that ends it in the same way.
-/

namespace Missive

/-- The reason for which a program is refused. -/
inductive CompileError where
  /-- `super` stands where it is not the receiver of a message. -/
  | bareSuper
  /-- A message is sent to `super` outside of a method. -/
  | superOutsideMethod
  | superCascade
  | emptyCascade
  /-- A class is defined inside a method or a block. -/
  | classInBody (name : String)
  /-- A declaration follows another statement. -/
  | lateDeclaration (name : String)
  | invalidAssignment (target : String)
  | arityMismatch (selector : Selector) (expected given : Nat)
  | tooManyArguments (selector : Selector) (given : Nat)
  | unknownSuperclass (name superclass : String)
  | duplicateField (className field : String)
  | tooManyConstants
  /-- A variable is declared too many blocks further out. -/
  | blocksTooDeep
  /-- The compiler itself has crashed, which is no report about the program. -/
  | crash (cause : Crash)
  deriving DecidableEq, Repr

namespace CompileError

/-- The reason without the words that introduce every report. -/
def reason : CompileError → String
  | .bareSuper =>
    "cannot compile 'super' node\n  hint: super can only be used as the receiver of a message"
  | .superOutsideMethod => "super: super is only meaningful inside a method"
  | .superCascade =>
    "cascade: super cannot be the receiver of a cascade"
      ++ "\n  hint: send each message to super separately"
  | .emptyCascade => "cascade: a cascade needs at least one message"
  | .classInBody name =>
    "class '" ++ name ++ "': class definitions cannot appear inside methods or blocks"
      ++ "\n  hint: define classes at the top level of a program"
  | .lateDeclaration name =>
    "declaration of '" ++ name ++ "' must precede all other statements in its body"
  | .invalidAssignment target => "cannot assign to '" ++ target ++ "'"
  | .arityMismatch selector expected given =>
    "#" ++ selector ++ " takes " ++ toString expected ++ " argument(s), given " ++ toString given
  | .tooManyArguments selector given =>
    "#" ++ selector ++ " has " ++ toString given ++ " arguments (limit 255)"
  | .unknownSuperclass name superclass =>
    "class '" ++ name ++ "' extends unknown class '" ++ superclass ++ "'"
  | .duplicateField className field =>
    "field '" ++ field ++ "' is declared more than once in '" ++ className ++ "'"
  | .tooManyConstants => "constant pool limit exceeded"
  | .blocksTooDeep => "internal error: blocks nested too deeply"
  | .crash cause => cause.message

/-- The text that reports an error. -/
def message (error : CompileError) : String := "compile error: " ++ error.reason

end CompileError

end Missive
