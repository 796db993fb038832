import Missive.Text.Alphabetic

/-!
# Selectors

A message is named by its selector.  The spelling of a selector fixes how many arguments the
message takes.
-/

namespace Missive

/-- The name of a message. -/
abbrev Selector := String

/-- The number of arguments a message takes.  A keyword selector takes one for each colon; a
selector that starts with a letter or an underscore takes none; any other is an operator and
takes one. -/
def Selector.arity (selector : Selector) : Nat :=
  let colons := selector.toList.count ':'
  if 0 < colons then colons
  else
    match selector.toList with
    | [] => 0
    | c :: _ => if Text.isAlphabetic c || c = '_' then 0 else 1

end Missive
