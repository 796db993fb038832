import Missive.Protocol.Arguments

/-!
# Messages to numbers

Arithmetic on two integers is exact or fails with an overflow.  As soon as one operand is a
floating-point number, both are taken as floating-point numbers.
-/

namespace Missive

/-- The arithmetic messages with one argument. -/
inductive Arithmetic where
  | add
  | subtract
  | multiply
  | divide
  /-- Division rounded downward. -/
  | floorDivide
  /-- The remainder with the sign of the argument. -/
  | modulo
  /-- The remainder with the sign of the receiver. -/
  | remainder
  deriving DecidableEq, Repr

namespace Arithmetic

/-- All arithmetic messages with one argument. -/
def all : List Arithmetic := [add, subtract, multiply, divide, floorDivide, modulo, remainder]

/-- The selector of an arithmetic message. -/
def selector : Arithmetic → Selector
  | add => "+"
  | subtract => "-"
  | multiply => "*"
  | divide => "/"
  | floorDivide => "//"
  | modulo => "\\\\"
  | remainder => "rem:"

/-- The operation divides by its argument. -/
def divides : Arithmetic → Bool
  | add | subtract | multiply => false
  | divide | floorDivide | modulo | remainder => true

/-- The result on two integers, if it fits. -/
def ofInts? : Arithmetic → Int64 → Int64 → Option Int64
  | add => Checked.add?
  | subtract => Checked.sub?
  | multiply => Checked.mul?
  | divide => Checked.quotient?
  | floorDivide => Checked.floorQuotient?
  | modulo => Checked.modulus?
  | remainder => Checked.remainder?

/-- The result on two floating-point numbers. -/
def ofFloats : Arithmetic → Binary64 → Binary64 → Binary64
  | add, x, y => x.add y
  | subtract, x, y => x.sub y
  | multiply, x, y => x.mul y
  | divide, x, y => x.div y
  | floorDivide, x, y => (x.div y).floor
  | modulo, x, y => x.sub ((x.div y).floor.mul y)
  | remainder, x, y => x.rem y

/-- The result on two numbers. -/
def apply (operation : Arithmetic) : Number → Number → Except Cause Number
  | .int x, .int y =>
    if operation.divides ∧ y = 0 then throw .divisionByZero
    else
      match operation.ofInts? x y with
      | some result => pure (.int result)
      | none => throw (.integerOverflow operation.selector)
  | x, y =>
    if operation.divides && y.toFloat.isZero then throw .divisionByZero
    else pure (.float (operation.ofFloats x.toFloat y.toFloat))

end Arithmetic

/-- The messages that numbers understand. -/
inductive NumberMessage where
  | arithmetic (operation : Arithmetic)
  | compare (comparison : Comparison)
  | max
  | min
  | between
  | negated
  | abs
  | sqrt
  | squared
  | isZero
  | even
  | odd
  | asFloat
  | asInteger
  | floor
  | ceiling
  | rounded
  | truncated
  | raisedTo
  | interval
  | toDo
  | toByDo
  | timesRepeat
  deriving DecidableEq, Repr

namespace NumberMessage

/-- All messages that numbers understand. -/
def all : List NumberMessage :=
  Arithmetic.all.map arithmetic ++ Comparison.all.map compare ++
    [max, min, between, negated, abs, sqrt, squared, isZero, even, odd, asFloat, asInteger, floor,
     ceiling, rounded, truncated, raisedTo, interval, toDo, toByDo, timesRepeat]

/-- The selector of a message. -/
def selector : NumberMessage → Selector
  | arithmetic operation => operation.selector
  | compare comparison => comparison.selector
  | max => "max:"
  | min => "min:"
  | between => "between:and:"
  | negated => "negated"
  | abs => "abs"
  | sqrt => "sqrt"
  | squared => "squared"
  | isZero => "isZero"
  | even => "even"
  | odd => "odd"
  | asFloat => "asFloat"
  | asInteger => "asInteger"
  | floor => "floor"
  | ceiling => "ceiling"
  | rounded => "rounded"
  | truncated => "truncated"
  | raisedTo => "raisedTo:"
  | interval => "to:"
  | toDo => "to:do:"
  | toByDo => "to:by:do:"
  | timesRepeat => "timesRepeat:"

/-- The message with a selector. -/
def ofSelector? (selector : Selector) : Option NumberMessage :=
  all.find? fun message => message.selector == selector

/-- The selectors to which a number says that it responds. -/
def listed : List Selector :=
  ["+", "-", "*", "/", "//", "\\\\", "rem:", "<", ">", "<=", ">=", "max:", "min:", "between:and:",
   "negated", "abs", "sqrt", "squared", "isZero", "even", "odd", "asFloat", "asInteger", "floor",
   "ceiling", "rounded", "truncated", "raisedTo:", "to:", "to:do:", "to:by:do:", "timesRepeat:"]

end NumberMessage

namespace Number

/-- How two numbers compare: integers exactly, any others as floating-point numbers. -/
def compare? : Number → Number → Option Ordering
  | .int x, .int y => some (compare x.toInt y.toInt)
  | x, y => x.toFloat.compare? y.toFloat

/-- The first number is less than the second. -/
def isLess (x y : Number) : Bool := x.compare? y == some .lt

/-- The result of an operation on one integer that may not fit. -/
def checked (selector : Selector) (result : Option Int64) : Effect Action :=
  match result with
  | some value => answer (.int value)
  | none => throw (.integerOverflow selector)

/-- The integer to which a number is rounded. -/
def roundTo (n : Number) (selector : Selector) (rounding : Binary64.Rounding) : Effect Action :=
  match n with
  | .int value => answer (.int value)
  | .float value => checked selector ((value.toInt? rounding).bind Checked.fits?)

/-- The power of two numbers.  A natural exponent of an integer must be below `2 ^ 32`. -/
def power (selector : Selector) : Number → Number → Effect Action
  | .int base, .int exponent =>
    if 0 ≤ exponent.toInt then
      if exponent.toInt < 0x100000000 then
        checked selector (Checked.power? base exponent.toInt.toNat)
      else throw (.integerOverflow selector)
    else answer (.float ((Number.int base).toFloat.pow (Number.int exponent).toFloat))
  | base, exponent => answer (.float (base.toFloat.pow exponent.toFloat))

/-- How many values one piece of memory can hold: it has fewer than `2 ^ 63` bytes, and a value
takes 24 of them. -/
def maxItems : Nat := 0x7FFFFFFFFFFFFFFF / 24

/-- The integers from one to another. -/
def range (first last : Int64) : Except Crash (List Value) :=
  let count := (last.toInt - first.toInt + 1).toNat
  if maxItems < count then throw .capacityOverflow
  else
    return (List.range count).map fun (offset : Nat) => .int (Int64.ofInt (first.toInt + offset))

/-- Counts from one number to another by a step. -/
def countTo (selector : Selector) (first stop step : Number) (body : BlockRef) :
    Effect Action := do
  if step.toFloat.isZero then throw (.invalidArgument selector "step must not be zero")
  let counter : Counter :=
    match first, stop, step with
    | .int next, .int stop, .int step => .int (some next) stop step
    | _, _, _ => .float first.toFloat stop.toFloat step.toFloat
  (Iteration.count body counter first.value).begin

end Number

namespace NumberMessage

/-- What a message to a number does. -/
def perform (message : NumberMessage) (n : Number) (arguments : List Value) : Effect Action :=
  let selector := message.selector
  let first := argument arguments 0
  let second := argument arguments 1
  match message with
  | arithmetic operation => do
    let other ← numberArgument selector first
    answer (← liftExcept (operation.apply n other)).value
  | compare comparison => do
    let other ← numberArgument selector first
    match n.compare? other with
    | some order => answer (.bool (comparison.holds order))
    | none => answer (.bool false)
  | max => do
    let other ← numberArgument selector first
    answer (if n.isLess other then first else n.value)
  | min => do
    let other ← numberArgument selector first
    answer (if n.isLess other then n.value else first)
  | between => do
    let low ← numberArgument selector first
    let high ← numberArgument selector second
    answer (.bool (low.toFloat.le n.toFloat && n.toFloat.le high.toFloat))
  | negated =>
    match n with
    | .int value => Number.checked selector (Checked.negate? value)
    | .float value => answer (.float value.neg)
  | abs =>
    match n with
    | .int value => Number.checked selector (Checked.magnitude? value)
    | .float value => answer (.float value.abs)
  | sqrt => answer (.float n.toFloat.sqrt)
  | squared => do answer (← liftExcept (Arithmetic.multiply.apply n n)).value
  | isZero => answer (.bool n.toFloat.isZero)
  | even => do
    let value ← intArgument selector n.value
    answer (.bool (value.toInt % 2 == 0))
  | odd => do
    let value ← intArgument selector n.value
    answer (.bool (value.toInt % 2 != 0))
  | asFloat => answer (.float n.toFloat)
  | asInteger | truncated => n.roundTo selector .truncate
  | floor => n.roundTo selector .floor
  | ceiling => n.roundTo selector .ceiling
  | rounded => n.roundTo selector .nearest
  | raisedTo => do Number.power selector n (← numberArgument selector first)
  | interval => do
    let start ← intArgument selector n.value
    let stop ← intArgument selector first
    answer (← newArray (← settle (Number.range start stop)))
  | toDo => do
    let stop ← numberArgument selector first
    let body ← blockArgument selector second
    Number.countTo selector n stop (.int 1) body
  | toByDo => do
    let stop ← numberArgument selector first
    let step ← numberArgument selector second
    let body ← blockArgument selector (argument arguments 2)
    Number.countTo selector n stop step body
  | timesRepeat => do
    let body ← blockArgument selector first
    let count ← intArgument selector n.value
    (Iteration.times body count.toInt.toNat n.value).begin

end NumberMessage

end Missive
