import Lox.CommandLine
import Std.Time.DateTime.Timestamp

/-!
# The program

Opens the files that the command line names, and writes what the command has to say.
-/

namespace Lox.CommandLine

/-- More fuel than any run gets through. -/
def boundlessFuel : Nat := Nat.pow 2 62

/-- A clock that shows a number of milliseconds first, and a microsecond more at each further
reading. -/
def tickingClock (start reading : Nat) : Number :=
  Number.ofDecimal (start * 1000 + reading) 6

/-- Why an attempt on a file failed. -/
def causeOf : IO.Error → String
  | .noFileOrDirectory .. => notFound
  | .permissionDenied .. => "Permission denied (os error 13)"
  | error => toString error

def usage : String :=
  "Usage: lox (tokenize FILE [--json] | parse FILE [--json] | run FILE) [--log] [--log-file PATH]"

/-- Writes a transcript to where it belongs, and gives the code to exit with. -/
def deliver (transcript : Transcript) : IO UInt32 := do
  let output ← IO.getStdout
  output.write transcript.output
  output.flush
  let errors ← IO.getStderr
  errors.putStr transcript.errors
  return UInt32.ofNat transcript.exitCode

/-- Does what an action asks for with a file that is there. -/
def perform (action : Action) (file : String) : IO Transcript := do
  let bytes ← IO.FS.readBinFile file
  let now ← Std.Time.Timestamp.now
  let clock := tickingClock now.toMillisecondsSinceUnixEpoch.val.toNat
  match action.performOn boundlessFuel clock bytes with
  | some transcript => return transcript
  | none => return failure "The program did not end" "no fuel left"

/-- Does what an invocation asks for. The log file is made before the source file is opened. -/
def obey (invocation : Invocation) : IO Transcript := do
  let opening : IO Transcript := do
    try
      perform invocation.action invocation.file
    catch error =>
      return openFailure invocation.file (causeOf error)
  match invocation.log with
  | none => opening
  | some path =>
    try
      IO.FS.writeFile path ""
    catch error =>
      return logFailure path (causeOf error)
    opening

end Lox.CommandLine

open Lox.CommandLine in
def main (arguments : List String) : IO UInt32 := do
  match Invocation.ofArguments? arguments with
  | some invocation => do
    let transcript ← obey invocation
    deliver transcript
  | none => do
    let errors ← IO.getStderr
    errors.putStrLn usage
    return 2
