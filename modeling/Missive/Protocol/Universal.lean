import Missive.Protocol.Blocks
import Missive.Protocol.Booleans
import Missive.Protocol.Collections
import Missive.Protocol.Numbers
import Missive.Protocol.Strings

/-!
# Messages that every value understands

The universal messages, the additional ones of classes, and the question whether a value
understands a message.  The messages of the built-in kinds of values come first, then the methods
of the program, then the universal messages.
-/

namespace Missive

/-- The messages that every value understands. -/
inductive UniversalMessage where
  | identical
  | notIdentical
  | equal
  | notEqual
  | isNil
  | notNil
  | ifNil
  | ifNotNil
  | ifNilIfNotNil
  | ifNotNilIfNil
  | printString
  | displayString
  | println
  | print
  | yourself
  | className
  | classOf
  | respondsTo
  | error
  | isKindOf
  | isMemberOf
  | isString
  | isNumber
  | isBlock
  | isClass
  deriving DecidableEq, Repr

namespace UniversalMessage

/-- All messages that every value understands. -/
def all : List UniversalMessage :=
  [identical, notIdentical, equal, notEqual, isNil, notNil, ifNil, ifNotNil, ifNilIfNotNil,
   ifNotNilIfNil, printString, displayString, println, print, yourself, className,
   classOf, respondsTo, error, isKindOf, isMemberOf, isString, isNumber, isBlock,
   isClass]

/-- The selector of a message. -/
def selector : UniversalMessage → Selector
  | identical => "=="
  | notIdentical => "~~"
  | equal => "="
  | notEqual => "~="
  | isNil => "isNil"
  | notNil => "notNil"
  | ifNil => "ifNil:"
  | ifNotNil => "ifNotNil:"
  | ifNilIfNotNil => "ifNil:ifNotNil:"
  | ifNotNilIfNil => "ifNotNil:ifNil:"
  | printString => "printString"
  | displayString => "displayString"
  | println => "println"
  | print => "print"
  | yourself => "yourself"
  | className => "className"
  | classOf => "class"
  | respondsTo => "respondsTo:"
  | error => "error:"
  | isKindOf => "isKindOf:"
  | isMemberOf => "isMemberOf:"
  | isString => "isString"
  | isNumber => "isNumber"
  | isBlock => "isBlock"
  | isClass => "isClass"

/-- The message with a selector. -/
def ofSelector? (selector : Selector) : Option UniversalMessage :=
  all.find? fun message => message.selector == selector

/-- The selectors to which every value says that it responds. -/
def listed : List Selector :=
  ["==", "~~", "=", "~=", "isNil", "notNil", "ifNil:", "ifNotNil:", "ifNil:ifNotNil:",
   "ifNotNil:ifNil:", "printString", "displayString", "println", "print", "yourself", "className",
   "class", "respondsTo:", "error:", "isKindOf:", "isMemberOf:", "isString", "isNumber", "isBlock",
   "isClass"]

end UniversalMessage

/-- The messages that classes understand in addition. -/
inductive ClassMessage where
  | new
  | basicNew
  | name
  | superclass
  deriving DecidableEq, Repr

namespace ClassMessage

/-- All messages that classes understand in addition. -/
def all : List ClassMessage := [new, basicNew, name, superclass]

/-- The selector of a message. -/
def selector : ClassMessage → Selector
  | new => "new"
  | basicNew => "basicNew"
  | name => "name"
  | superclass => "superclass"

/-- The message with a selector. -/
def ofSelector? (selector : Selector) : Option ClassMessage :=
  all.find? fun message => message.selector == selector

/-- The selectors to which a class says that it responds in addition. -/
def listed : List Selector := ["new", "basicNew", "name", "superclass"]

/-- What a message to a class does. -/
def perform (message : ClassMessage) (id : ObjectId) (definition : ClassObject) :
    Effect Action := do
  match message with
  | new | basicNew =>
    let (record, store) := (← get).newRecord id
    set store
    answer (.ref record)
  | name => answer (.string definition.name)
  | superclass =>
    match definition.superclass with
    | some parent => answer (.ref parent)
    | none => answer .nil

end ClassMessage

/-! ## Dispatch -/

/-- What a message does, once its arguments are known. -/
abbrev Response := List Value → Effect Action

namespace Store

/-- The response of a built-in kind of value.  Instances, classes and `nil` have none. -/
def builtinResponse? (store : Store) (receiver : Value) (selector : Selector) : Option Response :=
  match store.see receiver with
  | .int n => (NumberMessage.ofSelector? selector).map (·.perform (.int n))
  | .float x => (NumberMessage.ofSelector? selector).map (·.perform (.float x))
  | .string text => (StringMessage.ofSelector? selector).map (·.perform text)
  | .bool value => (BoolMessage.ofSelector? selector).map (·.perform value)
  | .block id closure => (BlockMessage.ofSelector? selector).map (·.perform ⟨id, closure⟩)
  | .array id items => (ArrayMessage.ofSelector? selector).map (·.perform id items)
  | .dictionary id entries => (DictionaryMessage.ofSelector? selector).map (·.perform id entries)
  | .nil | .record .. | .classObject .. | .gone _ => none

/-- The method of the program for a message, with the class that defines it and the side of the
class. -/
def method? (store : Store) (receiver : Value) (selector : Selector) :
    Option (ObjectId × ClassObject × MethodDescriptor × Bool) :=
  match store.see receiver with
  | .record _ classId _ =>
    (store.lookup false selector classId).map fun (owner, definition, method) =>
      (owner, definition, method, false)
  | .classObject id _ =>
    (store.lookup true selector id).map fun (owner, definition, method) =>
      (owner, definition, method, true)
  | _ => none

/-- The additional response of a class. -/
def classResponse? (store : Store) (receiver : Value) (selector : Selector) : Option Response :=
  match store.see receiver with
  | .classObject id definition =>
    (ClassMessage.ofSelector? selector).map fun message _ => message.perform id definition
  | _ => none

/-- The selectors that are listed for the kind of the value. -/
def listedSelectors (store : Store) (receiver : Value) : List Selector :=
  match store.see receiver with
  | .int _ | .float _ => NumberMessage.listed
  | .string _ => StringMessage.listed
  | .bool _ => BoolMessage.listed
  | .block .. => BlockMessage.listed
  | .array .. => ArrayMessage.listed
  | .dictionary .. => DictionaryMessage.listed
  | .classObject .. => ClassMessage.listed
  | .nil | .record .. | .gone _ => []

/-- The value says that it understands the message. -/
def respondsTo (store : Store) (receiver : Value) (selector : Selector) : Bool :=
  (store.method? receiver selector).isSome ||
    (store.listedSelectors receiver).contains selector ||
    UniversalMessage.listed.contains selector

end Store

/-- Calls a block, with the value as its argument if it takes one; any other value stands for
itself. -/
def evaluateWith (block value : Value) : Effect Action := do
  let store ← get
  match store.see block with
  | .block id closure =>
    if closure.parameterCount = 1 then return .call ⟨id, closure⟩ [value] none
    else evaluate block
  | _ => evaluate block

namespace UniversalMessage

/-- The class that an argument must be. -/
def classArgument (selector : Selector) (value : Value) : Effect ObjectId := do
  match (← get).see value with
  | .classObject id _ => return id
  | _ => mismatch selector "class" value

/-- What a universal message does. -/
def perform (message : UniversalMessage) (receiver : Value) (arguments : List Value) :
    Effect Action := do
  let store ← get
  let selector := message.selector
  let first := argument arguments 0
  let second := argument arguments 1
  match message with
  | identical => answer (.bool (receiver.identical first))
  | notIdentical => answer (.bool !receiver.identical first)
  | equal => answer (.bool (← settle (store.equals none receiver first)))
  | notEqual => answer (.bool !(← settle (store.equals none receiver first)))
  | isNil => answer (.bool receiver.isNil)
  | notNil => answer (.bool !receiver.isNil)
  | ifNil => if receiver.isNil then evaluate first else answer receiver
  | ifNotNil => if receiver.isNil then answer .nil else evaluateWith first receiver
  | ifNilIfNotNil => if receiver.isNil then evaluate first else evaluateWith second receiver
  | ifNotNilIfNil => if receiver.isNil then evaluate second else evaluateWith first receiver
  | printString => answer (.string (store.print receiver))
  | displayString => answer (.string (store.display receiver))
  | println => return .write (store.display receiver ++ "\n") receiver
  | print => return .write (store.display receiver) receiver
  | yourself => answer receiver
  | className => answer (.string (store.className receiver))
  | classOf =>
    match store.see receiver with
    | .record _ classId _ => answer (.ref classId)
    | .classObject id _ => answer (.ref id)
    | _ => answer (.string (store.className receiver))
  | respondsTo =>
    match first with
    | .string name => answer (.bool (store.respondsTo receiver name))
    | other => mismatch selector "selector string" other
  | error => throw (.userError (store.display first))
  | isKindOf =>
    let target ← classArgument selector first
    match store.see receiver with
    | .record _ classId _ => answer (.bool (store.inheritsFrom classId target))
    | _ => answer (.bool false)
  | isMemberOf =>
    let target ← classArgument selector first
    match store.see receiver with
    | .record _ classId _ => answer (.bool (classId == target))
    | _ => answer (.bool false)
  | isString =>
    match store.see receiver with
    | .string _ => answer (.bool true)
    | _ => answer (.bool false)
  | isNumber =>
    match store.see receiver with
    | .int _ | .float _ => answer (.bool true)
    | _ => answer (.bool false)
  | isBlock =>
    match store.see receiver with
    | .block .. => answer (.bool true)
    | _ => answer (.bool false)
  | isClass =>
    match store.see receiver with
    | .classObject .. => answer (.bool true)
    | _ => answer (.bool false)

end UniversalMessage

/-- The response to a message for which neither the kind of the value nor the program has
one. -/
def Store.universalResponse? (store : Store) (receiver : Value) (selector : Selector) :
    Option Response :=
  match UniversalMessage.ofSelector? selector with
  | some message => some (message.perform receiver)
  | none => store.classResponse? receiver selector

end Missive
