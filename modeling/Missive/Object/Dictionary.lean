import Missive.Code.Crash
import Missive.Object.Store

/-!
# Equality and dictionaries

Two values are equal when they are the same, when they are numbers of the same size, or when
they are arrays or dictionaries with equal contents.  Contents are compared only to a fixed depth
of nesting, below which only the same object counts as equal; the keys of a dictionary are
compared from the start again.

A comparison need not come to an answer.  Since keys are compared from the start, it goes on without
end where a dictionary is reached again through its own keys.  And while an entry of a dictionary is
being stored or removed, nothing else may look into that dictionary.

A dictionary is a list of entries in the order in which their keys were first inserted.
-/

namespace Missive

/-- Contents nested deeper than this are neither compared nor printed. -/
def maxDepth : Nat := 8

/-- The position of the first item that passes a test. -/
def findPosition {α : Type} (test : α → Except Crash Bool) : List α → Except Crash (Option Nat)
  | [] => return none
  | item :: rest => do
    if ← test item then return some 0
    else return (← findPosition test rest).map (· + 1)

namespace Store

/-- Equality of values at a depth of nesting.  The dictionary `held`, if there is one, is being
changed.  The fuel bounds how often the comparison goes down. -/
def equalsAt (store : Store) (held : Option ObjectId) :
    (fuel depth : Nat) → Value → Value → Except Crash Bool
  | 0, _, _, _ => throw .endlessComparison
  | fuel + 1, depth, a, b =>
    if a.identical b then return true
    else if maxDepth < depth then return false
    else
      match store.see a, store.see b with
      | .int x, .float y => return (Binary64.ofInt x.toInt).numericEq y
      | .float x, .int y => return (Binary64.ofInt y.toInt).numericEq x
      | .float x, .float y => return x.numericEq y
      | .array _ xs, .array _ ys =>
        if xs.length = ys.length then
          (xs.zip ys).allM fun (x, y) => store.equalsAt held fuel (depth + 1) x y
        else return false
      | .dictionary left xs, .dictionary right ys =>
        if held = some left ∨ held = some right then throw .alreadyBorrowed
        else if xs.length = ys.length then
          xs.allM fun (key, x) => do
            match ← ys.findM? fun entry => store.equalsAt held fuel 0 entry.1 key with
            | some (_, y) => store.equalsAt held fuel (depth + 1) x y
            | none => return false
        else return false
      | _, _ => return false

/-- The number of ways in which two objects can be compared at some depth, and one more.  A
comparison that goes down so often comes back to two objects at the same depth and has no end. -/
def equalityFuel (store : Store) : Nat :=
  (maxDepth + 1) * (store.cells.size * store.cells.size) + 1

/-- Equality of values. -/
def equals (store : Store) (held : Option ObjectId) (a b : Value) : Except Crash Bool :=
  store.equalsAt held store.equalityFuel 0 a b

end Store

namespace Entries

variable (store : Store) (held : Option ObjectId) (entries : List (Value × Value))

/-- The position of the entry whose key is equal to the given one. -/
def position? (key : Value) : Except Crash (Option Nat) :=
  findPosition (fun entry => store.equals held entry.1 key) entries

/-- The value stored for a key. -/
def get? (key : Value) : Except Crash (Option Value) := do
  let found ← position? store held entries key
  return found.bind fun index => (entries[index]?).map Prod.snd

/-- Stores a value for a key.  A key that is there already keeps its place, a new one comes
last. -/
def insert (key value : Value) : Except Crash (List (Value × Value)) := do
  match ← position? store held entries key with
  | some index => return entries.modify index fun entry => (entry.1, value)
  | none => return entries ++ [(key, value)]

/-- Removes the entry of a key. -/
def remove (key : Value) : Except Crash (List (Value × Value)) := do
  match ← position? store held entries key with
  | some index => return entries.eraseIdx index
  | none => return entries

/-- A dictionary with the given entries inserted one after the other. -/
def ofPairs (pairs : List (Value × Value)) : Except Crash (List (Value × Value)) :=
  pairs.foldlM (fun entries pair => insert store none entries pair.1 pair.2) []

end Entries

end Missive
