/-
# The program

The words of the command line say what to do. The files to work on come as a
snapshot on the standard input. The report goes to the standard output, with the
files that the run has changed behind it; complaints go to the error output.
-/

import MetricCatalog.CommandLine.Run
import MetricCatalog.Files.Snapshot

namespace MetricCatalog.Program

/-- Reads a stream up to its end. -/
partial def readAll (stream : IO.FS.Stream) (text : String) : IO String := do
  let line ← stream.getLine
  if line.isEmpty then return text else readAll stream (text ++ line)

/-- The variables of the environment that stand in for switches. -/
def readVariables : IO (List (String × String)) :=
  (CommandLine.Switch.shared.filterMap (·.variableName?)).filterMapM fun name => do
    return (← IO.getEnv name).map fun value => (name, value)

/-- Reads the snapshot; without one there are no files. -/
def readSnapshot : IO (Except DecodeError Snapshot) := do
  let text ← readAll (← IO.getStdin) ""
  return if text.isEmpty then .ok default else Json.decodeText Codec.readSnapshot text

/-- Runs a command on the files of a snapshot and prints what it says. -/
def runOn (snapshot : Snapshot) (words : List String) : IO UInt32 := do
  let known ← readVariables
  let environment : Builtin.Surroundings := ⟨snapshot.files, snapshot.now, snapshot.seed, default⟩
  let (outcome, after) := CommandLine.run (List.lookup · known) words environment
  let output ← IO.getStdout
  output.putStr outcome.output
  let changes := Codec.ofChanges snapshot.files after.files
  if !changes.isEmpty then output.putStrLn (Json.arr changes).compact
  (← IO.getStderr).putStr outcome.complaint
  return outcome.exitCode.toUInt32

end MetricCatalog.Program

/-- Runs the command that the words of the command line ask for. -/
def main (words : List String) : IO UInt32 := do
  match ← MetricCatalog.Program.readSnapshot with
  | .ok snapshot => MetricCatalog.Program.runOn snapshot words
  | .error error =>
      (← IO.getStderr).putStrLn (error.message MetricCatalog.Json.wording)
      return 2
