import Missive.Protocol.Arguments

/-!
# Messages to truth values

The conditional messages evaluate only the block that is needed.
-/

namespace Missive

/-- The messages that truth values understand. -/
inductive BoolMessage where
  | not
  | conjunction
  | disjunction
  | and
  | or
  | xor
  | ifTrue
  | ifFalse
  | ifTrueIfFalse
  | ifFalseIfTrue
  deriving DecidableEq, Repr

namespace BoolMessage

/-- All messages that truth values understand. -/
def all : List BoolMessage :=
  [not, conjunction, disjunction, and, or, xor, ifTrue, ifFalse, ifTrueIfFalse, ifFalseIfTrue]

/-- The selector of a message. -/
def selector : BoolMessage → Selector
  | not => "not"
  | conjunction => "&"
  | disjunction => "|"
  | and => "and:"
  | or => "or:"
  | xor => "xor:"
  | ifTrue => "ifTrue:"
  | ifFalse => "ifFalse:"
  | ifTrueIfFalse => "ifTrue:ifFalse:"
  | ifFalseIfTrue => "ifFalse:ifTrue:"

/-- The message with a selector. -/
def ofSelector? (selector : Selector) : Option BoolMessage :=
  all.find? fun message => message.selector == selector

/-- The selectors to which a truth value says that it responds. -/
def listed : List Selector :=
  ["not", "&", "|", "and:", "or:", "xor:", "ifTrue:", "ifFalse:", "ifTrue:ifFalse:",
   "ifFalse:ifTrue:"]

/-- What a message to a truth value does. -/
def perform (message : BoolMessage) (value : Bool) (arguments : List Value) : Effect Action :=
  let selector := message.selector
  let first := argument arguments 0
  let second := argument arguments 1
  match message with
  | not => answer (.bool !value)
  | conjunction => do
    let other ← expectBool selector first
    answer (.bool (value && other))
  | disjunction => do
    let other ← expectBool selector first
    answer (.bool (value || other))
  | xor => do
    let other ← expectBool selector first
    answer (.bool (value != other))
  | and => if value then evaluate first else answer (.bool false)
  | or => if value then answer (.bool true) else evaluate first
  | ifTrue => if value then evaluate first else answer .nil
  | ifFalse => if value then answer .nil else evaluate first
  | ifTrueIfFalse => evaluate (if value then first else second)
  | ifFalseIfTrue => evaluate (if value then second else first)

end BoolMessage

end Missive
