import Missive.CommandLine

/-!
# The program

Reads the file that the command line names, runs the machine step by step, and writes each text
as soon as the program has produced it.
-/

namespace Missive

namespace CommandLine

/-- The number of a system error.  Some calls answer it with its sign turned. -/
def systemErrorNumber (code : UInt32) : Nat :=
  if code < 0x80000000 then code.toNat else (0 - code).toNat

/-- What the system says about an error.  It starts with a capital letter and has words of its own
for a name that is too long and for links that lead in a circle. -/
def systemWords (number : Nat) (details : String) : String :=
  match number with
  | 36 => "File name too long"
  | 40 => "Too many levels of symbolic links"
  | _ => details.capitalize

/-- The reason for an error in the words of the system, with its number. -/
def systemReason (error : IO.Error) : String :=
  let worded (details : String) (code : UInt32) : String :=
    let number := systemErrorNumber code
    systemWords number details ++ " (os error " ++ toString number ++ ")"
  match error with
  | .noFileOrDirectory _ code details => worded details code
  | .permissionDenied _ code details => worded details code
  | .inappropriateType _ code details => worded details code
  | .invalidArgument _ code details => worded details code
  | .resourceExhausted _ code details => worded details code
  | .noSuchThing _ code details => worded details code
  | other => toString other

/-- Reads the bytes of a file. -/
def readFile (path : String) : IO (Except String (List UInt8)) := do
  try
    let bytes ← IO.FS.readBinFile path
    return .ok bytes.toList
  catch error => return .error (systemReason error)

/-- Writes what a call leaves behind and answers its code. -/
def deliver (transcript : Transcript) : IO UInt32 := do
  let output ← IO.getStdout
  output.putStr transcript.output
  output.flush
  IO.eprint transcript.errors
  return UInt32.ofNat transcript.exitCode

/-- Takes steps until the program ends. -/
partial def drive (machine : Machine) : IO UInt32 := do
  let (next, state) := machine.step
  let (written, silent) := next.takeOutput
  if !written.isEmpty then
    let output ← IO.getStdout
    output.putStr written
    output.flush
  match state with
  | .ok .running => drive silent
  | .ok (.finished value) => deliver (conclusion silent (.ok value))
  | .error fault => deliver (conclusion silent (.error fault))

/-- Runs a unit to its end. -/
def runUnit (config : Config) (unit : CodeUnit) : IO UInt32 :=
  match (Machine.new config none).load unit with
  | (machine, .ok _) => drive machine
  | (machine, .error fault) => deliver (conclusion machine (.error fault))

end CommandLine

end Missive

/-- The program: its arguments are those of the command line. -/
def main (arguments : List String) : IO UInt32 := do
  let path := (Missive.CommandLine.Request.ofArguments arguments).file.getD ""
  let content ← Missive.CommandLine.readFile path
  match Missive.CommandLine.task (fun _ => content) arguments with
  | .report transcript => Missive.CommandLine.deliver transcript
  | .run config unit => Missive.CommandLine.runUnit config unit
