import Missive.Object.Hierarchy
import Missive.Compile.Session

/-!
# Global variables

The global variables of a machine by name, in the order of their names.  Classes are bound to
globals under their own names.
-/

namespace Missive

/-- The global variables in ascending order of their names. -/
structure Globals where
  entries : List (String × Value)
  deriving Inhabited

namespace Globals

/-- No global variables. -/
def empty : Globals := ⟨[]⟩

/-- The value of a global variable. -/
def get? (globals : Globals) (name : String) : Option Value := globals.entries.lookup name

/-- Puts a value at the place of a name in an ordered list. -/
def insertEntry (name : String) (value : Value) : List (String × Value) → List (String × Value)
  | [] => [(name, value)]
  | entry :: rest =>
    if entry.1 = name then (name, value) :: rest
    else if name < entry.1 then (name, value) :: entry :: rest
    else entry :: insertEntry name value rest

/-- Stores the value of a global variable. -/
def set (globals : Globals) (name : String) (value : Value) : Globals :=
  ⟨insertEntry name value globals.entries⟩

/-- The class that is bound to a name. -/
def class? (globals : Globals) (store : Store) (name : String) : Option ObjectId :=
  match (globals.get? name).map store.see with
  | some (.classObject id _) => some id
  | _ => none

/-- Binds a new class to its name. -/
def defineClass (globals : Globals) (store : Store) (definition : ClassObject) :
    Globals × Store :=
  let (id, extended) := store.alloc (.classObject definition)
  (globals.set definition.name (.ref id), extended)

/-- The globals at the start: only the root class. -/
def initial (store : Store) : Globals × Store :=
  empty.defineClass store (ClassObject.root rootClassName)

/-- All values of global variables. -/
def values (globals : Globals) : List Value := globals.entries.map Prod.snd

end Globals

end Missive
