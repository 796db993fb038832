import Missive.Machine.Iteration

/-!
# Arguments of built-in messages

A message to a built-in value takes its arguments from a list and checks of what kind they are.
-/

namespace Missive

/-- An integer or a floating-point number. -/
inductive Number where
  | int (value : Int64)
  | float (value : Binary64)
  deriving DecidableEq, Repr

namespace Number

/-- The nearest floating-point number. -/
def toFloat : Number → Binary64
  | .int value => Binary64.ofInt value.toInt
  | .float value => value

/-- The number as a value. -/
def value : Number → Value
  | .int n => .int n
  | .float x => .float x

end Number

/-- The argument at a position. -/
def argument (arguments : List Value) (position : Nat) : Value := arguments.getD position .nil

/-- A number as an argument. -/
def numberArgument (selector : Selector) : Value → Effect Number
  | .int value => return .int value
  | .float value => return .float value
  | other => mismatch selector "number" other

/-- An integer as an argument. -/
def intArgument (selector : Selector) : Value → Effect Int64
  | .int value => return value
  | other => mismatch selector "integer" other

/-- A text as an argument. -/
def stringArgument (selector : Selector) : Value → Effect String
  | .string text => return text
  | other => mismatch selector "string" other

/-- A block as an argument. -/
def blockArgument (selector : Selector) (value : Value) : Effect BlockRef := do
  let store ← get
  match store.see value with
  | .block id closure => return ⟨id, closure⟩
  | _ => mismatch selector "block" value

/-- The items of an array as an argument. -/
def arrayArgument (selector : Selector) (value : Value) : Effect (List Value) := do
  let store ← get
  match store.see value with
  | .array _ items => return items
  | _ => mismatch selector "array" value

/-- An index that counts from one, as a position in a sequence of the given size. -/
def indexArgument (selector : Selector) (size : Nat) (value : Value) : Effect Nat := do
  let index ← intArgument selector value
  if index.toInt < 1 ∨ (size : Int) < index.toInt then throw (.indexOutOfBounds index.toInt size)
  else return index.toInt.toNat - 1

/-- The answer to a message, where the message does nothing else. -/
def answer (value : Value) : Effect Action := return .answer value

/-! ## Comparisons -/

/-- The four comparisons. -/
inductive Comparison where
  | less
  | greater
  | lessOrEqual
  | greaterOrEqual
  deriving DecidableEq, Repr

namespace Comparison

/-- All comparisons. -/
def all : List Comparison := [less, greater, lessOrEqual, greaterOrEqual]

/-- The selector of a comparison. -/
def selector : Comparison → Selector
  | less => "<"
  | greater => ">"
  | lessOrEqual => "<="
  | greaterOrEqual => ">="

/-- The comparison holds of two things in the given order. -/
def holds : Comparison → Ordering → Bool
  | less, order => order == .lt
  | greater, order => order == .gt
  | lessOrEqual, order => order != .gt
  | greaterOrEqual, order => order != .lt

end Comparison

end Missive
