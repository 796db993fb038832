import Missive.Machine.Execution

/-!
# Running programs

Programs are loaded and then run step by step or to their end.  Only code that passes
verification is loaded.  After a fault the activations stay in place until the next program is
loaded.
-/

namespace Missive

namespace Machine

/-- How the program itself is called in reports. -/
def topLevelLabel : String := "<top level>"

/-- The activations under way as a fault reports them. -/
def trace (machine : Machine) : List TraceEntry :=
  machine.frames.map fun frame => ⟨frame.label, frame.ip - 1⟩

/-- Takes one step.  A machine whose program has finished answers its value again. -/
def step (machine : Machine) : Machine × Except Fault StepState :=
  if machine.frames.isEmpty then
    match machine.result with
    | some value => (machine, .ok (.finished value))
    | none => (machine, .error ⟨.noProgram, []⟩)
  else
    match Exec.step machine with
    | .ok state next => (next, .ok state)
    | .error cause next => (next, .error ⟨cause, next.trace⟩)

/-- Starts a program in a context; what was running before is discarded. -/
def start (machine : Machine) (code : CodeUnit) (context : ContextId) : Machine :=
  let number := machine.lastFrame + 1
  let frame : Frame :=
    { id := ⟨number⟩, home := ⟨number⟩, kind := .topLevel, code, ip := 0, stack := [], context
      receiver := .nil, owner := none, classSide := false, label := topLevelLabel, loop := none }
  { machine with frames := [frame], result := none, steps := 0, lastFrame := number }

/-- Loads a program with local variables of its own. -/
def load (machine : Machine) (code : CodeUnit) : Machine × Except Fault Unit :=
  match code.verify with
  | .error fault => (machine, .error ⟨.invalidCode fault, []⟩)
  | .ok _ =>
    let (context, contexts) := machine.contexts.alloc ⟨#[], none⟩
    ({ machine with contexts }.start code context, .ok ())

/-- Loads a program that shares the local variables of the session. -/
def loadInSession (machine : Machine) (code : CodeUnit) : Machine × Except Fault Unit :=
  match code.verify with
  | .error fault => (machine, .error ⟨.invalidCode fault, []⟩)
  | .ok _ => (machine.start code machine.sessionContext, .ok ())

/-- Takes steps until the program ends, but no more than the fuel allows.  Nothing is answered
where the fuel runs out. -/
def finish : (fuel : Nat) → Machine → Machine × Option (Except Fault Value)
  | 0, machine => (machine, none)
  | fuel + 1, machine =>
    match machine.step with
    | (next, .ok .running) => finish fuel next
    | (next, .ok (.finished value)) => (next, some (.ok value))
    | (next, .error fault) => (next, some (.error fault))

/-- Runs a program that has just been loaded. -/
def finishLoaded (fuel : Nat) (loaded : Machine × Except Fault Unit) :
    Machine × Option (Except Fault Value) :=
  match loaded with
  | (machine, .ok _) => finish fuel machine
  | (machine, .error fault) => (machine, some (.error fault))

/-- Runs a program with local variables of its own. -/
def run (machine : Machine) (fuel : Nat) (code : CodeUnit) :
    Machine × Option (Except Fault Value) :=
  finishLoaded fuel (machine.load code)

/-- Runs a program that shares the local variables of the session. -/
def runInSession (machine : Machine) (fuel : Nat) (code : CodeUnit) :
    Machine × Option (Except Fault Value) :=
  finishLoaded fuel (machine.loadInSession code)

/-- Why the evaluation of a fragment failed. -/
inductive EvalError where
  | compile (error : CompileError)
  | run (fault : Fault)
  deriving DecidableEq, Repr

/-- Compiles a fragment in the session of the machine and runs it.  The session keeps what a
fragment declares once it compiles, also where it fails later. -/
def eval (machine : Machine) (fuel : Nat) (fragment : Program) :
    Machine × Option (Except EvalError Value) :=
  match machine.session.compile fragment with
  | (_, .error error) => (machine, some (.error (.compile error)))
  | (session, .ok code) =>
    let (final, outcome) := { machine with session }.runInSession fuel code
    (final, outcome.map fun result => result.mapError .run)

/-! ## Views -/

/-- The operands of the innermost activation, the latest first. -/
def operands (machine : Machine) : List Value :=
  match machine.frames with
  | frame :: _ => frame.stack
  | [] => []

/-- The local variables of the innermost activation, or of the session when nothing is under
way. -/
def locals (machine : Machine) : List Value :=
  let context :=
    match machine.frames with
    | frame :: _ => frame.context
    | [] => machine.sessionContext
  match machine.contexts.get? context with
  | some found => found.locals.toList
  | none => []

/-- The position and the instruction that the next step executes. -/
def currentInstruction? (machine : Machine) : Option (Nat × Instruction) :=
  match machine.frames with
  | frame :: _ => (frame.code.code[frame.ip]?).map fun instruction => (frame.ip, instruction)
  | [] => none

/-- What has been written, and the machine with an empty record of it. -/
def takeOutput (machine : Machine) : String × Machine :=
  (machine.output.written, { machine with output := { machine.output with written := "" } })

end Machine

end Missive
