import Missive.Code.Decoding
import Missive.Code.Statistics
import Missive.Machine.Running
import Missive.Text.Digits

/-!
# The command line

A call names a file with a code unit and says whether the unit is to be run, listed or counted.
This module reads the arguments of a call and decides what is written and with which code the
call ends.  How a file is read and where texts are written is left to the caller.
-/

namespace Missive

namespace CommandLine

/-- What a call leaves behind. -/
structure Transcript where
  exitCode : Nat
  /-- The text written as the result. -/
  output : String
  /-- The text written about errors. -/
  errors : String
  deriving DecidableEq, Repr

/-- The arguments of a call by their meaning. -/
structure Request where
  help : Bool
  listing : Bool
  statistics : Bool
  /-- The text given as the limit of steps. -/
  stepLimit : Option String
  file : Option String
  deriving DecidableEq, Repr

/-- The explanation of the arguments. -/
def usage : String :=
  "SMOG - object-message language bytecode runner\n\n"
    ++ "Usage:\n"
    ++ "  smog <file.sg>                 Run a compiled program\n"
    ++ "  smog --disasm <file.sg>        Print the disassembly\n"
    ++ "  smog --stats <file.sg>         Print opcode statistics\n"
    ++ "  smog --max-steps N <file.sg>   Abort after N instructions\n"
    ++ "  smog --help, -h                Show this help\n\n"
    ++ "Set SMOG_LOG (e.g. SMOG_LOG=debug) to enable logging.\n"

/-- The argument that follows the first occurrence of an option. -/
def optionValue? (option : String) : List String → Option String
  | [] => none
  | argument :: rest => if argument = option then rest.head? else optionValue? option rest

/-- Reads the arguments.  The file is the first argument that is neither an option nor the same
text as the limit of steps, wherever it stands. -/
def Request.ofArguments (arguments : List String) : Request :=
  let stepLimit := optionValue? "--max-steps" arguments
  { help := arguments.any fun argument => argument == "--help" || argument == "-h"
    listing := arguments.contains "--disasm"
    statistics := arguments.contains "--stats"
    stepLimit
    file := arguments.find? fun argument =>
      some argument != stepLimit && argument.toList.head? != some '-' }

/-- The name that a path ends with.  Empty parts and parts that stay in place do not count, and
a path that ends by going up has no name. -/
def fileName? (path : String) : Option String :=
  match ((path.splitOn "/").filter fun part => part != "" && part != ".").getLast? with
  | some ".." => none
  | found => found

/-- What follows the last dot in the name of a file.  A dot at the start of the name begins no
extension. -/
def extension? (path : String) : Option String := do
  let reversed := (← fileName? path).toList.reverse
  match reversed.dropWhile (· != '.') with
  | _ :: _ :: _ => return String.ofList (reversed.takeWhile (· != '.')).reverse
  | _ => none

/-- The extension of files with code units. -/
def unitExtension : String := "sg"

/-- Reads a limit of steps: decimal digits, with or without a plus sign, that fit in 64 bits. -/
def readLimit? (text : String) : Option Nat :=
  let digits :=
    match text.toList with
    | '+' :: rest => rest
    | characters => characters
  (Text.ofDigits? digits).filter fun limit => limit < 0x10000000000000000

/-- The call ends with a report about an error. -/
def failure (exitCode : Nat) (message : String) : Transcript := ⟨exitCode, "", message ++ "\n"⟩

/-- What is left to do for a call once its arguments and its file have been read. -/
inductive Task where
  /-- Write a report and end. -/
  | report (transcript : Transcript)
  /-- Run a unit. -/
  | run (config : Config) (unit : CodeUnit)

/-- The report about a unit that is not to be run. -/
def unitReport (request : Request) (unit : CodeUnit) : String :=
  (if request.listing then "=== BYTECODE ===\n\n" ++ unit.listingText else "")
    ++ (if request.statistics then unit.statisticsText else "")

/-- What to do with a unit that has been read.  The limit of steps is looked at only when the
unit is to be run. -/
def unitTask (request : Request) (unit : CodeUnit) : Task :=
  if request.listing || request.statistics then .report ⟨0, unitReport request unit, ""⟩
  else
    match request.stepLimit with
    | none => .run {} unit
    | some text =>
      match readLimit? text with
      | some limit => .run { maxSteps := some limit } unit
      | none =>
        .report (failure 2 ("Error: --max-steps expects a number, got '" ++ text ++ "'"))

/-- A way to read files: the bytes of a file, or the reason why it cannot be read. -/
abbrev Files := String → Except String (List UInt8)

/-- What to do for a file that the caller named. -/
def fileTask (files : Files) (request : Request) (path : String) : Task :=
  let refuse (reason : String) : Task :=
    .report (failure 1 ("Failed to load '" ++ path ++ "': " ++ reason))
  if extension? path ≠ some unitExtension then
    .report (failure 1 ("Error: expected a .sg file, got " ++ path))
  else
    match files path with
    | .error reason => refuse ("i/o error: " ++ reason)
    | .ok bytes =>
      match CodeUnit.decode bytes with
      | .error error => refuse error.message
      | .ok unit => unitTask request unit

/-- What to do for a call. -/
def task (files : Files) (arguments : List String) : Task :=
  let request := Request.ofArguments arguments
  if request.help then .report ⟨0, usage, ""⟩
  else
    match request.file with
    | none => .report ⟨2, usage, ""⟩
    | some path => fileTask files request path

/-- The code of a call that ends in a crash: the process has aborted where its stack was exhausted,
and otherwise it was brought down in order. -/
def crashCode : Crash → Nat
  | .endlessComparison => 134
  | .countTooLarge | .indexTooLarge | .alreadyBorrowed | .capacityOverflow => 101

/-- How a run ends: with the value of the program, with a report about a fault, or in a crash. -/
def conclusion (machine : Machine) : Except Fault Value → Transcript
  | .ok value => ⟨0, machine.store.print value ++ "\n", ""⟩
  | .error ⟨.crash cause, _⟩ => ⟨crashCode cause, "", cause.message ++ "\n"⟩
  | .error fault => failure 1 fault.message

/-- What a call leaves behind.  Nothing is answered where a program takes more steps than the
fuel allows. -/
def respond (files : Files) (fuel : Nat) (arguments : List String) : Option Transcript :=
  match task files arguments with
  | .report transcript => some transcript
  | .run config unit => do
    let (machine, outcome) := (Machine.new config none).run fuel unit
    let ending := conclusion machine (← outcome)
    return { ending with output := machine.output.written ++ ending.output }

end CommandLine

end Missive
