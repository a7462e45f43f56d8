import RobotScript.CommandLine.Run
import RobotScript.Log.Stamp
import Std.Time.DateTime.Timestamp

/-!
# The program

Reads the environment and the files that the command line names, runs the command line, and writes
what the run leaves behind.
-/

namespace RobotScript

/-- The failure that an error of the operating system stands for. -/
def failureOf : IO.Error → FileFailure
  | .inappropriateType _ code _ => if code = 20 then .notDirectory else .isDirectory
  | .invalidArgument _ code _ => if code = 36 then .nameTooLong else .notFound
  | .illegalOperation code _ => if code = 40 then .tooManyLinks else .notFound
  | _ => .notFound

/-- What is found at a path on the disk. -/
def lookUp (path : String) : IO Found := do
  try
    let place ← IO.FS.realPath path
    match (← place.metadata).type with
    | .file => return .file place.toString (← IO.FS.readBinFile place)
    | _ => return .directory
  catch e => return .missing (failureOf e)

/-- The variables that preferences come from, as far as they are set. -/
def readEnvironment : IO Environment := do
  let values ← PreferenceVariable.all.mapM fun name => do
    return (← IO.getEnv name).map fun value => (name, value)
  return values.filterMap id

/-- The files that the words of a command line may name. -/
def readFiles (words : List String) : IO FileSystem := do
  let found ← words.mapM fun word => do return (word, ← lookUp word)
  return fun path =>
    match found.find? fun entry => entry.1 == path with
    | some entry => entry.2
    | none => .missing .notFound

end RobotScript

open RobotScript

/-- Runs the program. A first run measures the time that the second one reports. -/
def main (words : List String) : IO UInt32 := do
  let environment ← readEnvironment
  let files ← readFiles words
  let run (elapsed : Nat) := CommandLine.run "cbot-lex" files environment elapsed words
  let start ← IO.monoNanosNow
  let first ← IO.mkRef (run 0).exitCode
  let exitCode ← first.get
  let stop ← IO.monoNanosNow
  let outcome := run (stop - start)
  let now ← Std.Time.Timestamp.now
  let stamp := Log.stamp now.toMillisecondsSinceUnixEpoch.val.toNat
  (← IO.getStdout).putStr outcome.standardOutput
  (← IO.getStderr).putStr (String.join (outcome.errorOutput.toList.map (Log.Output.render stamp)))
  return exitCode.toUInt32
