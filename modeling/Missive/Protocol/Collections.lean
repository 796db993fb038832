import Missive.Protocol.Arguments

/-!
# Messages to arrays and dictionaries

Arrays are indexed from one.  Messages that visit the elements visit those that are present when
the message is sent.  A dictionary is held while an entry of it is stored or removed, also while the
key is looked for.
-/

namespace Missive

/-! ## Arrays -/

/-- The messages that arrays understand. -/
inductive ArrayMessage where
  | size
  | at
  | atPut
  | first
  | last
  | isEmpty
  | notEmpty
  | includes
  | indexOf
  | add
  | join
  | reversed
  | do
  | collect
  | select
  | reject
  | detect
  | detectIfNone
  | injectInto
  | keysAndValuesDo
  deriving DecidableEq, Repr

namespace ArrayMessage

/-- All messages that arrays understand. -/
def all : List ArrayMessage :=
  [size, ArrayMessage.at, atPut, first, last, isEmpty, notEmpty, includes, indexOf, add, join,
   reversed, ArrayMessage.do, collect, select, reject, detect, detectIfNone, injectInto,
   keysAndValuesDo]

/-- The selector of a message. -/
def selector : ArrayMessage → Selector
  | size => "size"
  | ArrayMessage.at => "at:"
  | atPut => "at:put:"
  | first => "first"
  | last => "last"
  | isEmpty => "isEmpty"
  | notEmpty => "notEmpty"
  | includes => "includes:"
  | indexOf => "indexOf:"
  | add => "add:"
  | join => ","
  | reversed => "reversed"
  | ArrayMessage.do => "do:"
  | collect => "collect:"
  | select => "select:"
  | reject => "reject:"
  | detect => "detect:"
  | detectIfNone => "detect:ifNone:"
  | injectInto => "inject:into:"
  | keysAndValuesDo => "keysAndValuesDo:"

/-- The message with a selector. -/
def ofSelector? (selector : Selector) : Option ArrayMessage :=
  all.find? fun message => message.selector == selector

/-- The selectors to which an array says that it responds. -/
def listed : List Selector :=
  ["size", "at:", "at:put:", "first", "last", "isEmpty", "notEmpty", "includes:", "indexOf:",
   "add:", ",", "reversed", "do:", "collect:", "select:", "reject:", "detect:", "detect:ifNone:",
   "inject:into:", "keysAndValuesDo:"]

/-- An item at one end of an array. -/
def endItem (item : Option Value) : Effect Action :=
  match item with
  | some value => answer value
  | none => throw (.indexOutOfBounds 1 0)

/-- Items with their indices. -/
def indexed (items : List Value) : List (Value × Value) :=
  items.zipIdx.map fun (item, position) => (.int (Int64.ofNat (position + 1)), item)

/-- What a message to an array does. -/
def perform (message : ArrayMessage) (id : ObjectId) (items : List Value)
    (arguments : List Value) : Effect Action :=
  let selector := message.selector
  let argument0 := argument arguments 0
  let argument1 := argument arguments 1
  match message with
  | size => answer (.int (Int64.ofNat items.length))
  | ArrayMessage.at => do
    let index ← indexArgument selector items.length argument0
    answer (items.getD index .nil)
  | atPut => do
    let index ← indexArgument selector items.length argument0
    modify fun store => store.set id (.array (items.set index argument1))
    answer argument1
  | first => endItem items.head?
  | last => endItem items.getLast?
  | isEmpty => answer (.bool items.isEmpty)
  | notEmpty => answer (.bool !items.isEmpty)
  | includes => do
    let store ← get
    answer (.bool (← settle (items.anyM fun item => store.equals none item argument0)))
  | indexOf => do
    let store ← get
    match ← settle (findPosition (fun item => store.equals none item argument0) items) with
    | some index => answer (.int (Int64.ofNat (index + 1)))
    | none => answer (.int 0)
  | add => do
    modify fun store => store.set id (.array (items ++ [argument0]))
    answer argument0
  | join => do
    let others ← arrayArgument selector argument0
    answer (← newArray (items ++ others))
  | reversed => do answer (← newArray items.reverse)
  | ArrayMessage.do => do
    let body ← blockArgument selector argument0
    (Iteration.each body (Walk.start items) (.ref id)).begin
  | keysAndValuesDo => do
    let body ← blockArgument selector argument0
    (Iteration.eachPair body (Walk.start (indexed items)) (.ref id)).begin
  | collect => do
    let body ← blockArgument selector argument0
    (Iteration.collect body (Walk.start items) []).begin
  | select => do
    let body ← blockArgument selector argument0
    (Iteration.filter body (Walk.start items) true []).begin
  | reject => do
    let body ← blockArgument selector argument0
    (Iteration.filter body (Walk.start items) false []).begin
  | detect => do
    let body ← blockArgument selector argument0
    (Iteration.detect body (Walk.start items) none).begin
  | detectIfNone => do
    let body ← blockArgument selector argument0
    (Iteration.detect body (Walk.start items) (some argument1)).begin
  | injectInto => do
    let body ← blockArgument selector argument1
    (Iteration.fold body (Walk.start items) argument0).begin

end ArrayMessage

/-! ## Dictionaries -/

/-- The messages that dictionaries understand. -/
inductive DictionaryMessage where
  | size
  | at
  | atPut
  | atIfAbsent
  | includesKey
  | removeKey
  | keys
  | values
  | isEmpty
  | notEmpty
  | do
  | keysDo
  | keysAndValuesDo
  deriving DecidableEq, Repr

namespace DictionaryMessage

/-- All messages that dictionaries understand. -/
def all : List DictionaryMessage :=
  [size, DictionaryMessage.at, atPut, atIfAbsent, includesKey, removeKey, keys, values, isEmpty,
   notEmpty, DictionaryMessage.do, keysDo, keysAndValuesDo]

/-- The selector of a message. -/
def selector : DictionaryMessage → Selector
  | size => "size"
  | DictionaryMessage.at => "at:"
  | atPut => "at:put:"
  | atIfAbsent => "at:ifAbsent:"
  | includesKey => "includesKey:"
  | removeKey => "removeKey:"
  | keys => "keys"
  | values => "values"
  | isEmpty => "isEmpty"
  | notEmpty => "notEmpty"
  | DictionaryMessage.do => "do:"
  | keysDo => "keysDo:"
  | keysAndValuesDo => "keysAndValuesDo:"

/-- The message with a selector. -/
def ofSelector? (selector : Selector) : Option DictionaryMessage :=
  all.find? fun message => message.selector == selector

/-- The selectors to which a dictionary says that it responds. -/
def listed : List Selector :=
  ["size", "at:", "at:put:", "at:ifAbsent:", "includesKey:", "removeKey:", "keys", "values",
   "isEmpty", "notEmpty", "do:", "keysDo:", "keysAndValuesDo:"]

/-- Fails because a key is not in the dictionary. -/
def missingKey {α : Type} (key : Value) : Effect α := do
  let store ← get
  throw (.keyNotFound (store.print key))

/-- What a message to a dictionary does. -/
def perform (message : DictionaryMessage) (id : ObjectId) (entries : List (Value × Value))
    (arguments : List Value) : Effect Action :=
  let selector := message.selector
  let argument0 := argument arguments 0
  let argument1 := argument arguments 1
  match message with
  | size => answer (.int (Int64.ofNat entries.length))
  | DictionaryMessage.at => do
    match ← settle (Entries.get? (← get) none entries argument0) with
    | some value => answer value
    | none => missingKey argument0
  | atPut => do
    let changed ← settle (Entries.insert (← get) (some id) entries argument0 argument1)
    modify fun store => store.set id (.dictionary changed)
    answer argument1
  | atIfAbsent => do
    match ← settle (Entries.get? (← get) none entries argument0) with
    | some value => answer value
    | none => evaluate argument1
  | includesKey => do
    answer (.bool (← settle (Entries.get? (← get) none entries argument0)).isSome)
  | removeKey => do
    match ← settle (Entries.get? (← get) (some id) entries argument0) with
    | some value =>
      let changed ← settle (Entries.remove (← get) (some id) entries argument0)
      modify fun store => store.set id (.dictionary changed)
      answer value
    | none => missingKey argument0
  | keys => do answer (← newArray (entries.map Prod.fst))
  | values => do answer (← newArray (entries.map Prod.snd))
  | isEmpty => answer (.bool entries.isEmpty)
  | notEmpty => answer (.bool !entries.isEmpty)
  | DictionaryMessage.do => do
    let body ← blockArgument selector argument0
    (Iteration.each body (Walk.start (entries.map Prod.snd)) (.ref id)).begin
  | keysDo => do
    let body ← blockArgument selector argument0
    (Iteration.each body (Walk.start (entries.map Prod.fst)) (.ref id)).begin
  | keysAndValuesDo => do
    let body ← blockArgument selector argument0
    (Iteration.eachPair body (Walk.start entries) (.ref id)).begin

end DictionaryMessage

end Missive
