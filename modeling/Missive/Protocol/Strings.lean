import Missive.Protocol.Arguments
import Missive.Text.Blank
import Missive.Text.Case
import Missive.Text.Digits

/-!
# Messages to texts

A text is a sequence of characters, counted from one.
-/

namespace Missive

/-- The messages that texts understand. -/
inductive StringMessage where
  | join
  | size
  | at
  | isEmpty
  | notEmpty
  | reversed
  | asUppercase
  | asLowercase
  | asString
  | asSymbol
  | asInteger
  | includesSubstring
  | copyFromTo
  | do
  | compare (comparison : Comparison)
  deriving DecidableEq, Repr

/-- An integer that a text spells: an optional sign and digits, between blanks. -/
def Text.parseInt? (text : String) : Option Int64 :=
  let (negative, digits) :=
    match trimBlanks text.toList with
    | '-' :: rest => (true, rest)
    | '+' :: rest => (false, rest)
    | rest => (false, rest)
  (ofDigits? digits).bind fun size => Checked.fits? (if negative then -(size : Int) else size)

/-- The second list of characters occurs in the first one without gaps. -/
def Text.includes (text part : List Char) : Bool :=
  part.isPrefixOf text ||
    match text with
    | [] => false
    | _ :: rest => includes rest part

namespace StringMessage

/-- All messages that texts understand. -/
def all : List StringMessage :=
  [join, size, StringMessage.at, isEmpty, notEmpty, reversed, asUppercase, asLowercase, asString,
   asSymbol, asInteger, includesSubstring, copyFromTo, StringMessage.do] ++
    Comparison.all.map compare

/-- The selector of a message. -/
def selector : StringMessage → Selector
  | join => ","
  | size => "size"
  | StringMessage.at => "at:"
  | isEmpty => "isEmpty"
  | notEmpty => "notEmpty"
  | reversed => "reversed"
  | asUppercase => "asUppercase"
  | asLowercase => "asLowercase"
  | asString => "asString"
  | asSymbol => "asSymbol"
  | asInteger => "asInteger"
  | includesSubstring => "includesSubstring:"
  | copyFromTo => "copyFrom:to:"
  | StringMessage.do => "do:"
  | compare comparison => comparison.selector

/-- The message with a selector. -/
def ofSelector? (selector : Selector) : Option StringMessage :=
  all.find? fun message => message.selector == selector

/-- The selectors to which a text says that it responds. -/
def listed : List Selector :=
  [",", "size", "at:", "isEmpty", "notEmpty", "reversed", "asUppercase", "asLowercase", "asString",
   "asSymbol", "asInteger", "includesSubstring:", "copyFrom:to:", "do:", "<", ">", "<=", ">="]

/-- The part of a text from one index to another, both included.  The part may be empty, but its
ends must lie in the text. -/
def copy (characters : List Char) (start stop : Int) : Except Cause (List Char) :=
  if start < 1 ∨ (characters.length : Int) < stop ∨ stop + 1 < start then
    throw (.indexOutOfBounds (if start < 1 then start else stop) characters.length)
  else pure ((characters.take stop.toNat).drop (start.toNat - 1))

/-- What a message to a text does. -/
def perform (message : StringMessage) (text : String) (arguments : List Value) : Effect Action :=
  let selector := message.selector
  let first := argument arguments 0
  let receiver := Value.string text
  match message with
  | join => do
    let other ← stringArgument selector first
    answer (.string (text ++ other))
  | size => answer (.int (Int64.ofNat text.length))
  | StringMessage.at => do
    let index ← indexArgument selector text.length first
    answer (.string (String.ofList (text.toList[index]?.toList)))
  | isEmpty => answer (.bool text.isEmpty)
  | notEmpty => answer (.bool !text.isEmpty)
  | reversed => answer (.string (String.ofList text.toList.reverse))
  | asUppercase => answer (.string (Text.toUpper text))
  | asLowercase => answer (.string (Text.toLower text))
  | asString | asSymbol => answer receiver
  | asInteger =>
    match Text.parseInt? text with
    | some value => answer (.int value)
    | none => answer .nil
  | includesSubstring => do
    let part ← stringArgument selector first
    answer (.bool (Text.includes text.toList part.toList))
  | copyFromTo => do
    let start ← intArgument selector first
    let stop ← intArgument selector (argument arguments 1)
    answer (.string (String.ofList (← liftExcept (copy text.toList start.toInt stop.toInt))))
  | StringMessage.do => do
    let body ← blockArgument selector first
    let items := text.toList.map fun c => Value.string (String.singleton c)
    (Iteration.each body (Walk.start items) receiver).begin
  | compare comparison => do
    let other ← stringArgument selector first
    answer (.bool (comparison.holds (Ord.compare text other)))

end StringMessage

end Missive
