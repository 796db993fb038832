import Missive.Object.Dictionary
import Missive.Object.Hierarchy
import Missive.Program.Literal

/-!
# Names and texts of values

How a value is called and how it is shown.  The printed text of a value shows texts between
quotes and the contents of arrays and dictionaries to a fixed depth; the displayed text of a
text is the text itself.
-/

namespace Missive

namespace Store

/-- What kind of thing a value is. -/
def typeName (store : Store) (value : Value) : String :=
  match store.see value with
  | .nil => "nil"
  | .bool _ => "boolean"
  | .int _ => "integer"
  | .float _ => "float"
  | .string _ => "string"
  | .array .. => "array"
  | .dictionary .. => "dictionary"
  | .block .. => "block"
  | .record .. => "instance"
  | .classObject .. => "class"
  | .gone _ => "nil"

/-- The name of the class of a value. -/
def className (store : Store) (value : Value) : String :=
  match store.see value with
  | .nil => "UndefinedObject"
  | .bool true => "True"
  | .bool false => "False"
  | .int _ => "Integer"
  | .float _ => "Float"
  | .string _ => "String"
  | .array .. => "Array"
  | .dictionary .. => "Dictionary"
  | .block .. => "Block"
  | .record _ classId _ => store.nameOf classId
  | .classObject _ definition => definition.name ++ " class"
  | .gone _ => "UndefinedObject"

/-- The article that goes with a name. -/
def article (name : String) : String :=
  match name.toList with
  | c :: _ => if "AEIOUaeiou".toList.contains c then "an" else "a"
  | [] => "a"

/-- The text of a value; `levels` levels of nesting are shown. -/
def printAt (store : Store) : (levels : Nat) → Value → String
  | 0, _ => "..."
  | levels + 1, value =>
    match store.see value with
    | .nil => "nil"
    | .bool value => Literal.boolText value
    | .int value => toString value.toInt
    | .float value => value.text .printed
    | .string text => Text.singleQuoted text
    | .array _ items => "#(" ++ " ".intercalate (items.map (store.printAt levels)) ++ ")"
    | .dictionary _ entries =>
      let shown := entries.map fun (key, value) =>
        store.printAt levels key ++ "->" ++ store.printAt levels value
      "a Dictionary(" ++ " ".intercalate shown ++ ")"
    | .block _ closure => "a Block/" ++ toString closure.parameterCount
    | .record _ classId _ =>
      let name := store.nameOf classId
      article name ++ " " ++ name
    | .classObject _ definition => definition.name
    | .gone _ => "nil"

/-- The text of a value for programmers. -/
def print (store : Store) (value : Value) : String := store.printAt (maxDepth + 1) value

/-- The text of a value for users. -/
def display (store : Store) (value : Value) : String :=
  match value with
  | .string text => text
  | _ => store.print value

/-- The text of a value together with its kind. -/
def describe (store : Store) (value : Value) : String :=
  store.typeName value ++ "(" ++ store.print value ++ ")"

end Store

end Missive
