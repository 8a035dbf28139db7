import RecordGate.Cli.Run
import RecordGate.Supply.Random
import Std.Time.DateTime.Timestamp

/-!
# The program

Gathers what a command line depends on, runs it and prints what it gives. There are no sockets: a
command that needs a server finds the network unreachable.
-/

namespace RecordGate.Program

open Cli

/-- The variables of the environment that stand for switches. -/
def readVariables : IO (List (String × String)) := do
  let names := [Switch.apiUrl, .token, .secret].filterMap (·.variableName)
  let found ← names.mapM fun name => do return (← IO.getEnv name).map fun value => (name, value)
  return found.filterMap id

/-- The words for a file that cannot be read. -/
def fileReason : IO.Error → String
  | .noFileOrDirectory _ _ _ => "No such file or directory (os error 2)"
  | .permissionDenied _ _ _ => "Permission denied (os error 13)"
  | .inappropriateType _ _ _ => "Is a directory (os error 21)"
  | e => toString e

def readText (path : String) : IO (Except String String) := do
  try
    return .ok (← IO.FS.readFile path)
  catch e =>
    return .error (fileReason e)

def readNeeded (env : List (String × String)) (args : List String) :
    IO (Except String String) := do
  match (Invocation.read env args).toOption.bind (·.command.file?) with
  | some path => readText path
  | none => return .error ""

def run (args : List String) : IO UInt32 := do
  let env ← readVariables
  let text ← readNeeded env args
  let now ← Std.Time.Timestamp.now
  let seed ← IO.getRandomBytes 32
  let ending := Cli.run
    { env, network := Network.unreachable, now := now.toSecondsSinceUnixEpoch.val
      supply := Supply.ofSeed seed.data.toList, file := fun _ => text } args
  IO.print ending.printed.out
  IO.eprint ending.printed.err
  return .ofNat ending.code

end RecordGate.Program

def main (args : List String) : IO UInt32 := RecordGate.Program.run args
