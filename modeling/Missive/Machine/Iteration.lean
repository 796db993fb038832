import Missive.Machine.Fault
import Missive.Numeric.Checked
import Missive.Object.Printing

/-!
# Iterations

A message such as `collect:` calls a block again and again.  It does not run the block itself: it
answers that the block is to be called and what to do with the block's answer, and it is resumed
with that answer.  A pending loop is therefore plain data, and a block called by a loop is an
activation like any other.

The elements that a loop visits are those present when it starts.
-/

namespace Missive

/-- A block with its identity. -/
structure BlockRef where
  id : ObjectId
  closure : Closure
  deriving Inhabited

/-- The block as a value. -/
def BlockRef.value (block : BlockRef) : Value := .ref block.id

/-- A way through a list: what has been passed, the latest first, and what lies ahead. -/
structure Walk (α : Type) where
  passed : List α
  ahead : List α

namespace Walk

variable {α : Type}

/-- A way that starts in front of a list. -/
def start (items : List α) : Walk α := ⟨[], items⟩

/-- The next item and the way after it. -/
def next? (walk : Walk α) : Option (α × Walk α) :=
  match walk.ahead with
  | [] => none
  | item :: rest => some (item, ⟨item :: walk.passed, rest⟩)

/-- All items of the list. -/
def items (walk : Walk α) : List α := walk.passed.reverse ++ walk.ahead

end Walk

/-- The numbers that a counting loop goes through. -/
inductive Counter where
  /-- Integers; there is no next one after one step would leave the range of integers. -/
  | int (next : Option Int64) (stop step : Int64)
  | float (next stop step : Binary64)
  deriving DecidableEq, Repr

/-- The next number and the counter after it, unless the stop has been passed. -/
def Counter.advance? : Counter → Option (Value × Counter)
  | .int none _ _ => none
  | .int (some next) stop step =>
    let inRange := if 0 < step then next ≤ stop else stop ≤ next
    if inRange then some (.int next, .int (Checked.add? next step) stop step) else none
  | .float next stop step =>
    let inRange := if Binary64.zero.lt step then next.le stop else stop.le next
    if inRange then some (.float next, .float (next.add step) stop step) else none

/-- A pending loop. -/
inductive Iteration where
  /-- Calls the condition, and the body if there is one, as long as the condition answers
  `goOn`.  `inBody` tells which of the two was called last. -/
  | whileLoop (condition : BlockRef) (body : Option BlockRef) (goOn inBody : Bool)
  /-- Calls the body until something else ends it. -/
  | forever (body : BlockRef)
  | times (body : BlockRef) (remaining : Nat) (receiver : Value)
  | count (body : BlockRef) (counter : Counter) (receiver : Value)
  | each (body : BlockRef) (walk : Walk Value) (receiver : Value)
  | eachPair (body : BlockRef) (walk : Walk (Value × Value)) (receiver : Value)
  /-- Collects the answers, the latest first in `results`. -/
  | collect (body : BlockRef) (walk : Walk Value) (results : List Value)
  /-- Collects the items for which the block answers `keep`, the latest first in `results`. -/
  | filter (body : BlockRef) (walk : Walk Value) (keep : Bool) (results : List Value)
  | fold (body : BlockRef) (walk : Walk Value) (accumulator : Value)
  /-- Looks for the first item for which the block answers true. -/
  | detect (body : BlockRef) (walk : Walk Value) (fallback : Option Value)

/-- What a message to a built-in value leads to. -/
inductive Action where
  /-- The value of the message is known. -/
  | answer (value : Value)
  /-- A block is called; its answer is the value of the message, or resumes a loop. -/
  | call (block : BlockRef) (arguments : List Value) (loop : Option Iteration)
  /-- A text is written; then the value of the message is known. -/
  | write (text : String) (value : Value)

/-- A computation that reads and changes the store and can fail; the store reached is kept either
way. -/
abbrev Effect := EStateM Cause Store

/-- Goes on with an outcome, or crashes with it. -/
def settle {α : Type} : Except Crash α → Effect α
  | .ok result => return result
  | .error crash => throw (.crash crash)

/-- Fails because a value is not of the expected kind. -/
def mismatch {α : Type} (selector : Selector) (expected : String) (found : Value) : Effect α := do
  let store ← get
  throw (.typeMismatch selector expected (store.className found))

/-- A truth value. -/
def expectBool (selector : Selector) : Value → Effect Bool
  | .bool value => return value
  | other => mismatch selector "boolean" other

/-- Creates an array. -/
def newArray (items : List Value) : Effect Value := do
  let store ← get
  let (id, extended) := store.alloc (.array items)
  set extended
  return .ref id

/-- Calls a block without arguments; any other value stands for itself. -/
def evaluate (value : Value) : Effect Action := do
  let store ← get
  match store.see value with
  | .block id closure => return .call ⟨id, closure⟩ [] none
  | _ => return .answer value

namespace Iteration

/-- Calls a block in the course of a loop. -/
def callThen (block : BlockRef) (arguments : List Value) (next : Iteration) : Action :=
  .call block arguments (some next)

/-- The selector of the message that started a loop with a condition. -/
def whileSelector (body : Option BlockRef) (goOn : Bool) : Selector :=
  (if goOn then "whileTrue" else "whileFalse") ++ (if body.isSome then ":" else "")

/-- The selector of the message that started a filter. -/
def filterSelector (keep : Bool) : Selector := if keep then "select:" else "reject:"

/-- The item that was passed last, if the block kept it. -/
def keptItem (walk : Walk Value) (kept : Bool) : List Value :=
  if kept then walk.passed.head?.toList else []

/-- Goes on with a loop.  `last` is the answer of the block called last, and nothing at the
start. -/
def advance (iteration : Iteration) (last : Option Value) : Effect Action :=
  match iteration with
  | .whileLoop condition body goOn inBody => do
    let verdict ←
      match last with
      | some value =>
        if inBody then pure none
        else
          let answer ← expectBool (whileSelector body goOn) value
          pure (some (answer == goOn))
      | none => pure none
    match verdict, body with
    | some false, _ => return .answer .nil
    | some true, some block =>
      return callThen block [] (.whileLoop condition body goOn true)
    | _, _ => return callThen condition [] (.whileLoop condition body goOn false)
  | .forever body => return callThen body [] (.forever body)
  | .times body remaining receiver =>
    match remaining with
    | 0 => return .answer receiver
    | remaining + 1 => return callThen body [] (.times body remaining receiver)
  | .count body counter receiver =>
    match counter.advance? with
    | some (value, next) => return callThen body [value] (.count body next receiver)
    | none => return .answer receiver
  | .each body walk receiver =>
    match walk.next? with
    | some (item, rest) => return callThen body [item] (.each body rest receiver)
    | none => return .answer receiver
  | .eachPair body walk receiver =>
    match walk.next? with
    | some ((key, value), rest) => return callThen body [key, value] (.eachPair body rest receiver)
    | none => return .answer receiver
  | .collect body walk results => do
    let grown := last.toList ++ results
    match walk.next? with
    | some (item, rest) => return callThen body [item] (.collect body rest grown)
    | none => return .answer (← newArray grown.reverse)
  | .filter body walk keep results => do
    let kept ←
      match last with
      | some value => do
        let answer ← expectBool (filterSelector keep) value
        pure (keptItem walk (answer == keep))
      | none => pure []
    let grown := kept ++ results
    match walk.next? with
    | some (item, rest) => return callThen body [item] (.filter body rest keep grown)
    | none => return .answer (← newArray grown.reverse)
  | .fold body walk accumulator =>
    let current := last.getD accumulator
    match walk.next? with
    | some (item, rest) => return callThen body [current, item] (.fold body rest current)
    | none => return .answer current
  | .detect body walk fallback => do
    let found ←
      match last with
      | some value => expectBool "detect:" value
      | none => pure false
    if found then return .answer (walk.passed.headD .nil)
    match walk.next? with
    | some (item, rest) => return callThen body [item] (.detect body rest fallback)
    | none =>
      match fallback with
      | some value => evaluate value
      | none => return .answer .nil

/-- Starts a loop. -/
def begin (iteration : Iteration) : Effect Action := iteration.advance none

/-- Goes on with a loop after a block has answered. -/
def resume (iteration : Iteration) (answer : Value) : Effect Action :=
  iteration.advance (some answer)

/-- All values that a pending loop holds on to. -/
def values : Iteration → List Value
  | .whileLoop condition body _ _ => condition.value :: body.toList.map BlockRef.value
  | .forever body => [body.value]
  | .times body _ receiver => [body.value, receiver]
  | .count body _ receiver => [body.value, receiver]
  | .each body walk receiver => body.value :: receiver :: walk.items
  | .eachPair body walk receiver =>
    body.value :: receiver :: walk.items.flatMap fun (key, value) => [key, value]
  | .collect body walk results => body.value :: walk.items ++ results
  | .filter body walk _ results => body.value :: walk.items ++ results
  | .fold body walk accumulator => body.value :: accumulator :: walk.items
  | .detect body walk fallback => body.value :: walk.items ++ fallback.toList

end Iteration

end Missive
