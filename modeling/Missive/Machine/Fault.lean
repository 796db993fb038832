import Missive.Code.Verification
import Missive.Program.Selector

/-!
# Faults of a running program

What can go wrong while a program runs, and the texts that report it together with the
activations that were under way.  The machine itself can also crash, which ends a run in the same
place but reports nothing to the caller.
-/

namespace Missive

/-- What went wrong. -/
inductive Cause where
  | doesNotUnderstand (receiver className : String) (selector : Selector)
  | wrongArgumentCount (selector : Selector) (expected given : Nat)
  | typeMismatch (selector : Selector) (expected found : String)
  | invalidArgument (selector : Selector) (reason : String)
  /-- A block returns from a method that has completed already. -/
  | nonLocalReturnExpired
  | stackUnderflow
  | stackOverflow (limit : Nat)
  | undefinedGlobal (name : String)
  | undefinedClassVariable (name : String)
  | unknownSuperclass (name superclass : String)
  /-- An instruction that needs a class is executed outside of every method. -/
  | noEnclosingClass (opcode : Opcode)
  | notAnInstance (found : String)
  | fieldOutOfRange (className : String) (index count : Nat)
  | indexOutOfBounds (index : Int) (size : Nat)
  | keyNotFound (key : String)
  | divisionByZero
  | integerOverflow (selector : Selector)
  | callDepthExceeded (limit : Nat)
  | stepLimitExceeded (limit : Nat)
  | invalidOperand (opcode : Opcode) (operand : Int32)
  /-- Code that did not pass verification was to be loaded. -/
  | invalidCode (fault : VerifyError)
  /-- A handle of a context that was freed has been used. -/
  | staleContext
  | output (reason : String)
  /-- The program itself raised an error. -/
  | userError (message : String)
  | noProgram
  /-- The machine itself has crashed, which is no report about the program. -/
  | crash (cause : Crash)
  deriving DecidableEq, Repr

/-- The text for what went wrong. -/
def Cause.message : Cause → String
  | .doesNotUnderstand receiver className selector =>
    receiver ++ " (" ++ className ++ ") does not understand #" ++ selector
  | .wrongArgumentCount selector expected given =>
    "#" ++ selector ++ " expects " ++ toString expected ++ " argument(s), got " ++ toString given
  | .typeMismatch selector expected found =>
    "#" ++ selector ++ ": expected " ++ expected ++ ", found " ++ found
  | .invalidArgument selector reason => "#" ++ selector ++ ": " ++ reason
  | .nonLocalReturnExpired => "non-local return: home method has already returned"
  | .stackUnderflow => "stack underflow"
  | .stackOverflow limit => "operand stack overflow (limit " ++ toString limit ++ ")"
  | .undefinedGlobal name => "undefined global '" ++ name ++ "'"
  | .undefinedClassVariable name => "undefined class variable '" ++ name ++ "'"
  | .unknownSuperclass name superclass =>
    "class '" ++ name ++ "' extends '" ++ superclass ++ "', which is not a defined class"
  | .noEnclosingClass opcode => opcode.name ++ " executed outside of any class"
  | .notAnInstance found =>
    "field access on a receiver that is not an instance (" ++ found ++ ")"
  | .fieldOutOfRange className index count =>
    "field index " ++ toString index ++ " out of range for '" ++ className ++ "' ("
      ++ toString count ++ " fields)"
  | .indexOutOfBounds index size =>
    "index " ++ toString index ++ " out of bounds (size " ++ toString size ++ ")"
  | .keyNotFound key => "key not found: " ++ key
  | .divisionByZero => "division by zero"
  | .integerOverflow selector => "integer overflow in #" ++ selector
  | .callDepthExceeded limit => "call depth exceeded (limit " ++ toString limit ++ ")"
  | .stepLimitExceeded limit => "step limit exceeded (limit " ++ toString limit ++ ")"
  | .invalidOperand opcode operand =>
    "invalid operand " ++ toString operand.toInt ++ " for " ++ opcode.name
  | .invalidCode fault => "invalid bytecode: " ++ fault.message
  | .staleContext => "reference to a reclaimed context"
  | .output reason => "output error: " ++ reason
  | .userError message => message
  | .noProgram => "no program loaded"
  | .crash cause => cause.message

/-- An activation that was under way: its label and the position of its last instruction. -/
structure TraceEntry where
  label : String
  ip : Nat
  deriving DecidableEq, Repr

/-- What went wrong, and the activations under way, the innermost first. -/
structure Fault where
  cause : Cause
  trace : List TraceEntry
  deriving DecidableEq, Repr

/-- The text that reports a fault. -/
def Fault.message (fault : Fault) : String :=
  let heading := "runtime error: " ++ fault.cause.message
  if fault.trace.isEmpty then heading
  else
    let entries := fault.trace.zipIdx.map fun (entry, index) =>
      "\n    " ++ toString index ++ ": " ++ entry.label ++ " @" ++ toString entry.ip
    heading ++ "\n  call stack:" ++ String.join entries

end Missive
