import Missive.Proofs.Machine.Operands
import Missive.Proofs.Meaning.Evaluation

/-!
# Code with answered messages

Code runs as on any machine, except that an oracle answers its messages and that a run stops where
a body would return.  A run agrees with an evaluation when it has sent the same messages to the same
oracle and has come to the same world, with the value on the stack in the one case and the same
fault in the other.  The only fault that a run has on its own is that the stack is full.
-/

namespace Missive

/-- A machine together with the messages that it has sent. -/
structure Watched where
  machine : Machine
  /-- The messages sent so far, the earliest first. -/
  calls : List Call

/-- A run of code whose messages are answered by an oracle. -/
abbrev Run := EStateM Cause Watched

namespace Machine

/-- What a message to the machine can change. -/
def world (machine : Machine) : World :=
  ⟨machine.contexts, machine.store, machine.globals, machine.output⟩

/-- The machine in another world. -/
def inWorld (machine : Machine) (world : World) : Machine :=
  { machine with
    contexts := world.contexts
    store := world.store
    globals := world.globals
    output := world.output }

end Machine

namespace Run

/-- A computation on the machine. -/
def onMachine {α : Type} (effect : Exec α) : Run α := fun watched =>
  match effect watched.machine with
  | .ok result machine => .ok result { watched with machine }
  | .error cause machine => .error cause { watched with machine }

/-- A computation on the world. -/
def onWorld {α : Type} (evaluation : Evaluation α) : Run α := fun watched =>
  match evaluation ⟨watched.machine.world, watched.calls⟩ with
  | .ok result progress => .ok result ⟨watched.machine.inWorld progress.world, progress.calls⟩
  | .error cause progress => .error cause ⟨watched.machine.inWorld progress.world, progress.calls⟩

/-- Sends a message and pushes the answer. -/
def answer (oracle : Oracle) (toSuper : Bool) (instruction : Instruction) :
    Run (Option Ending) := do
  let (receiver, selector, arguments) ← onMachine (Exec.takeMessage instruction)
  let value ← onWorld (Evaluation.ask oracle ⟨toSuper, receiver, selector, arguments⟩)
  onMachine (Exec.push value)
  return none

/-- Ends the body with the value on the stack. -/
def finish (fromHome : Bool) : Run (Option Ending) := do
  let value ← onMachine Exec.pop
  return some ⟨fromHome, value⟩

/-- Executes an instruction, and answers how the body ends if it does. -/
def execute (oracle : Oracle) (instruction : Instruction) : Run (Option Ending) :=
  match instruction.opcode with
  | .send => answer oracle false instruction
  | .superSend => answer oracle true instruction
  | .return => finish false
  | .nonLocalReturn => finish true
  | _ => do
    let _ ← onMachine (Exec.execute instruction)
    return none

/-- Executes the next instruction.  Running off the end of the code ends the body with the top of
the stack, or with `nil` when the stack is empty. -/
def step (oracle : Oracle) : Run (Option Ending) := do
  let current ← onMachine Exec.frame
  match current.code.code[current.ip]? with
  | some instruction =>
    onMachine (Exec.modifyFrame fun frame => { frame with ip := frame.ip + 1 })
    execute oracle instruction
  | none => return some ⟨false, current.stack.headD .nil⟩

/-- Goes on with a second run unless the first one has ended the body. -/
def andThen (first second : Run (Option Ending)) : Run (Option Ending) := do
  match ← first with
  | some ending => return some ending
  | none => second

/-- Takes steps until the body ends, at most the given number. -/
def steps (oracle : Oracle) : Nat → Run (Option Ending)
  | 0 => return none
  | count + 1 => andThen (step oracle) (steps oracle count)

theorem andThen_assoc (first second third : Run (Option Ending)) :
    andThen (andThen first second) third = andThen first (andThen second third) := by
  funext watched
  simp only [andThen, bind, EStateM.bind]
  cases first watched with
  | error cause reached =>
      rfl
  | ok ending reached =>
      cases ending with
      | none =>
          rfl
      | some ending =>
          rfl

theorem steps_add (oracle : Oracle) (first second : Nat) :
    steps oracle (first + second) = andThen (steps oracle first) (steps oracle second) := by
  induction first with
  | zero =>
      rw [Nat.zero_add]
      rfl
  | succ count inductionHypothesis =>
      rw [Nat.succ_add]
      change andThen (step oracle) (steps oracle (count + second)) = _
      rw [inductionHypothesis, ← andThen_assoc]
      rfl

end Run

/-! ## Activations -/

/-- An activation in which code runs, with the machine around it. -/
structure Base where
  machine : Machine
  frame : Frame
  /-- The activations below. -/
  rest : List Frame

namespace Base

/-- The machine when the code has come to an instruction. -/
def reached (base : Base) (progress : Progress) (ip : Nat) (stack : List Value) : Watched :=
  ⟨{ base.machine.inWorld progress.world with
      frames := { base.frame with ip, stack } :: base.rest }, progress.calls⟩

section Reached

variable (base : Base) (progress : Progress) (ip : Nat) (stack : List Value)

@[simp]
theorem reached_contexts :
    (base.reached progress ip stack).machine.contexts = progress.world.contexts := rfl

@[simp]
theorem reached_store : (base.reached progress ip stack).machine.store = progress.world.store := rfl

@[simp]
theorem reached_globals :
    (base.reached progress ip stack).machine.globals = progress.world.globals := rfl

end Reached

/-- What the running code knows of its activation. -/
def site (base : Base) : Site :=
  ⟨base.frame.context, base.frame.receiver, base.frame.owner, base.frame.classSide,
    base.frame.home, Exec.origin base.frame⟩

/-- How many values the stack of an activation may hold. -/
def limit (base : Base) : Nat := base.machine.config.maxStackDepth

end Base

theorem Run.steps_one {oracle : Oracle} {base : Base} {progress : Progress} {ip : Nat}
    {stack : List Value} {instruction : Instruction}
    (found : base.frame.code.code[ip]? = some instruction) :
    steps oracle 1 (base.reached progress ip stack) =
      execute oracle instruction (base.reached progress (ip + 1) stack) := by
  have fetched : step oracle (base.reached progress ip stack) =
      execute oracle instruction (base.reached progress (ip + 1) stack) := by
    have current : onMachine Exec.frame (base.reached progress ip stack) =
        .ok { base.frame with ip, stack } (base.reached progress ip stack) := rfl
    have advanced : onMachine (Exec.modifyFrame fun frame => { frame with ip := frame.ip + 1 })
        (base.reached progress ip stack) = .ok () (base.reached progress (ip + 1) stack) := rfl
    simp only [step, bind, EStateM.bind, current, found, advanced]
  simp only [steps, andThen, bind, EStateM.bind, fetched]
  cases execute oracle instruction (base.reached progress (ip + 1) stack) with
  | error cause watched =>
      rfl
  | ok ending watched =>
      cases ending with
      | none =>
          rfl
      | some ending =>
          rfl

/-! ## Agreement -/

/-- The run has done what the evaluation has done, unless the stack was full. -/
inductive Followed {α β : Type} (base : Base) (done : α → β → Nat → List Value → Prop) :
    EStateM.Result Cause Progress α → EStateM.Result Cause Watched β → Prop
  | answered {value : α} {answer : β} {progress : Progress} {ip : Nat} {stack : List Value} :
      done value answer ip stack →
      Followed base done (.ok value progress) (.ok answer (base.reached progress ip stack))
  | failed {cause : Cause} {progress : Progress} {ip : Nat} {stack : List Value} :
      Followed base done (.error cause progress) (.error cause (base.reached progress ip stack))
  | full {evaluated : EStateM.Result Cause Progress α} {progress : Progress} {ip : Nat}
      {stack : List Value} : base.limit ≤ stack.length →
      Followed base done evaluated
        (.error (.stackOverflow base.limit) (base.reached progress ip stack))

/-- The code goes on at an instruction, with a stack that depends on the value. -/
def GoesOn {α : Type} (next : Nat) (after : α → List Value) (value : α) (ending : Option Ending)
    (ip : Nat) (stack : List Value) : Prop :=
  ending = none ∧ ip = next ∧ stack = after value

/-- The body ends as it should and leaves a stack behind. -/
def EndsOn (below : List Value) (expected : Ending) (ending : Option Ending) (_ : Nat)
    (stack : List Value) : Prop :=
  ending = some expected ∧ stack = below

/-- A run that goes on is followed by another one. -/
theorem Followed.andThen {α β : Type} {base : Base} {next : Nat} {middle : α → List Value}
    {done : β → Option Ending → Nat → List Value → Prop} {x : Evaluation α}
    {f : α → Evaluation β} {first second : Run (Option Ending)} {progress : Progress}
    {start : Watched} (earlier : Followed base (GoesOn next middle) (x progress) (first start))
    (later : ∀ value reached, x progress = .ok value reached → Followed base done (f value reached)
      (second (base.reached reached next (middle value)))) :
    Followed base done ((x >>= f) progress) (Run.andThen first second start) := by
  simp only [Run.andThen, bind, EStateM.bind]
  generalize x progress = evaluated at earlier later ⊢
  generalize first start = ran at earlier ⊢
  cases earlier with
  | answered goesOn =>
      obtain ⟨rfl, rfl, rfl⟩ := goesOn
      exact later _ _ rfl
  | failed =>
      exact .failed
  | full isFull =>
      exact .full isFull

/-- Where the body has ended, nothing more is done. -/
theorem Followed.andThen_of_ends {base : Base} {below : List Value}
    {evaluated : EStateM.Result Cause Progress Ending} {first : Run (Option Ending)}
    {start : Watched} (ended : Followed base (EndsOn below) evaluated (first start))
    (second : Run (Option Ending)) :
    Followed base (EndsOn below) evaluated (Run.andThen first second start) := by
  simp only [Run.andThen, bind, EStateM.bind]
  generalize first start = ran at ended ⊢
  cases ended with
  | answered ends =>
      obtain ⟨rfl, rfl⟩ := ends
      exact .answered ⟨rfl, rfl⟩
  | failed =>
      exact .failed
  | full isFull =>
      exact .full isFull

end Missive
