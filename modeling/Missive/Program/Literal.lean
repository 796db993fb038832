import Missive.Numeric.Decimal

/-!
# Literals

The constants that can be written in a program, and their text.
-/

namespace Missive

/-- A literal as it is written in a program. -/
inductive Literal where
  | int (value : Int64)
  | float (value : Binary64)
  | string (text : String)
  /-- A name written after a hash sign; it stands for the same value as the string. -/
  | symbol (name : String)
  | bool (value : Bool)
  | nil
  deriving DecidableEq, Repr, Inhabited

/-- A text between single quotes, in which a single quote is written twice. -/
def Text.singleQuoted (text : String) : String :=
  String.ofList ('\'' :: text.toList.flatMap (fun c => if c = '\'' then [c, c] else [c]) ++ ['\''])

namespace Literal

/-- The spelling of a truth value. -/
def boolText (value : Bool) : String := if value then "true" else "false"

/-- The literal as it is written in a program. -/
def text : Literal → String
  | .int value => toString value.toInt
  | .float value => value.text .literal
  | .string text => Text.singleQuoted text
  | .symbol name => "#" ++ name
  | .bool value => boolText value
  | .nil => "nil"

end Literal

end Missive
