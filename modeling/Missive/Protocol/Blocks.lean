import Missive.Protocol.Arguments

/-!
# Messages to blocks

A block is called with as many arguments as it has parameters, or serves as the condition or the
body of a loop.
-/

namespace Missive

/-- The messages that blocks understand. -/
inductive BlockMessage where
  /-- Calls the block with up to four arguments. -/
  | value (count : Fin 5)
  | valueWithArguments
  | numArgs
  /-- Calls the block and then another one as long as the block answers the given value. -/
  | whileLoop (goOn : Bool)
  /-- Calls the block as long as it answers the given value. -/
  | whileAlone (goOn : Bool)
  | repeat
  deriving DecidableEq, Repr

/-- The selector that calls a block with a number of arguments. -/
def valueSelector (count : Nat) : Selector :=
  if count = 0 then "value" else String.join (List.replicate count "value:")

namespace BlockMessage

/-- All messages that blocks understand. -/
def all : List BlockMessage :=
  [value 0, value 1, value 2, value 3, value 4, valueWithArguments, numArgs, whileLoop true,
   whileLoop false, whileAlone true, whileAlone false, BlockMessage.repeat]

/-- The selector of a message. -/
def selector : BlockMessage → Selector
  | value count => valueSelector count
  | valueWithArguments => "valueWithArguments:"
  | numArgs => "numArgs"
  | whileLoop true => "whileTrue:"
  | whileLoop false => "whileFalse:"
  | whileAlone true => "whileTrue"
  | whileAlone false => "whileFalse"
  | BlockMessage.repeat => "repeat"

/-- The message with a selector. -/
def ofSelector? (selector : Selector) : Option BlockMessage :=
  all.find? fun message => message.selector == selector

/-- The selectors to which a block says that it responds. -/
def listed : List Selector :=
  ["value", "value:", "value:value:", "value:value:value:", "value:value:value:value:",
   "valueWithArguments:", "numArgs", "whileTrue:", "whileFalse:", "whileTrue", "whileFalse",
   "repeat"]

/-- What a message to a block does. -/
def perform (message : BlockMessage) (block : BlockRef) (arguments : List Value) :
    Effect Action :=
  let selector := message.selector
  let first := argument arguments 0
  match message with
  | value _ => return .call block arguments none
  | valueWithArguments => do return .call block (← arrayArgument selector first) none
  | numArgs => answer (.int (Int64.ofNat block.closure.parameterCount))
  | whileLoop goOn => do
    let body ← blockArgument selector first
    (Iteration.whileLoop block (some body) goOn false).begin
  | whileAlone goOn => (Iteration.whileLoop block none goOn false).begin
  | BlockMessage.repeat => (Iteration.forever block).begin

end BlockMessage

end Missive
