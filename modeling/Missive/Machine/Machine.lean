import Missive.Compile.Lowering
import Missive.Machine.Globals
import Missive.Memory.Contexts
import Missive.Memory.Objects
import Missive.Protocol.Universal

/-!
# The machine

A machine runs code units.  It has a stack of activations, the contexts with their local
variables, the objects, and the global variables.  Globals and classes stay from one program to
the next; the local variables of the top level stay only for the programs of a session.
-/

namespace Missive

/-- The limits of a machine. -/
structure Config where
  /-- How many activations may be under way. -/
  maxFrames : Nat := 10000
  /-- How many steps a program may take, if that is limited. -/
  maxSteps : Option Nat := none
  /-- How many values the stack of one activation may hold. -/
  maxStackDepth : Nat := 10000
  /-- With this many contexts, or tracked objects, the first collection is made. -/
  collectionThreshold : Nat := 1024
  deriving Repr, DecidableEq, Inhabited

/-- The configuration with another threshold, which is at least one. -/
def Config.withThreshold (config : Config) (threshold : Nat) : Config :=
  { config with collectionThreshold := max threshold 1 }

/-- An activation of a program, a method or a block. -/
structure Frame where
  id : FrameId
  /-- The activation from which a return statement returns: the activation itself, or for a
  block that of the method in which it was created. -/
  home : FrameId
  kind : BodyKind
  code : CodeUnit
  /-- The position of the next instruction. -/
  ip : Nat
  /-- The operands, the latest first. -/
  stack : List Value
  context : ContextId
  receiver : Value
  /-- The class that defines the running method. -/
  owner : Option ObjectId
  /-- The running method is one of the class itself. -/
  classSide : Bool
  label : String
  /-- The loop that waits for the answer; without one the answer goes on the stack below. -/
  loop : Option Iteration
  deriving Inhabited

/-- All values that an activation holds on to, those in its context left out. -/
def Frame.values (frame : Frame) : List Value :=
  let pending :=
    match frame.loop with
    | some iteration => iteration.values
    | none => []
  frame.stack ++ frame.receiver :: frame.owner.toList.map Value.ref ++ pending

/-- Where a program writes. -/
structure Output where
  /-- What has been written. -/
  written : String
  /-- The reason that is given when every attempt to write fails. -/
  refusal : Option String
  deriving Repr, Inhabited

/-- The state of a machine. -/
structure Machine where
  config : Config
  /-- The activations under way, the innermost first. -/
  frames : List Frame
  contexts : Arena
  store : Store
  globals : Globals
  /-- The context with the local variables of the session. -/
  sessionContext : ContextId
  /-- What is known about the programs of the session at compile time. -/
  session : Session
  /-- The number of the latest activation. -/
  lastFrame : Nat
  /-- The steps taken since a program was loaded. -/
  steps : Nat
  /-- With this many contexts the next collection is made. -/
  nextCollection : Nat
  /-- With this many tracked objects the next collection of objects is made. -/
  nextObjectCollection : Nat
  /-- The value of the program that finished last. -/
  result : Option Value
  output : Output
  deriving Inhabited

namespace Machine

/-- A machine on which nothing has run yet. -/
def new (config : Config) (refusal : Option String) : Machine :=
  let (sessionContext, contexts) := Arena.empty.alloc ⟨#[], none⟩
  let (globals, store) := Globals.initial Store.empty
  { config, frames := [], contexts, store, globals, sessionContext
    session := Session.initial
    lastFrame := 0
    steps := 0
    nextCollection := config.collectionThreshold
    nextObjectCollection := config.collectionThreshold
    result := none
    output := ⟨"", refusal⟩ }

/-- The values that the activations, the globals and the last result hold on to. -/
def rootValues (machine : Machine) : List Value :=
  machine.frames.flatMap Frame.values ++ machine.globals.values ++ machine.result.toList

/-- The contexts that are in use by themselves. -/
def rootContexts (machine : Machine) : List ContextId :=
  machine.sessionContext :: machine.frames.map Frame.context

/-- The objects to which something outside the store refers: the values above and the local
variables of all contexts. -/
def outsideReferences (machine : Machine) : List ObjectId :=
  let locals := machine.contexts.places.toList.flatMap fun place =>
    match place.context with
    | some context => context.locals.toList
    | none => []
  (machine.rootValues ++ locals).flatMap Value.references

/-- Frees the contexts that are not in use and sets when to do so again. -/
def collectContexts (machine : Machine) : Machine :=
  let (_, contexts) :=
    machine.contexts.collect machine.store machine.rootContexts machine.rootValues
  { machine with
    contexts
    nextCollection := max (contexts.live * 2) machine.config.collectionThreshold }

/-- Frees the objects that are not in use and sets when to do so again. -/
def collectObjects (machine : Machine) : Machine :=
  let (_, store) := machine.store.collect machine.outsideReferences
  { machine with
    store
    nextObjectCollection := max (store.trackedCount * 2) machine.config.collectionThreshold }

/-- Frees everything that is not in use. -/
def collectGarbage (machine : Machine) : Machine := machine.collectContexts.collectObjects

end Machine

end Missive
