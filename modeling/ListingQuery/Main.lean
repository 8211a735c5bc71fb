import ListingQuery.CommandLine.Command
import Std.Time.DateTime.Timestamp

/-!
# The program

Reads the environment and the files that a command names, prints the answer of the command, and ends
with 0 for an answer, 1 for a failure and 2 for arguments that are no command.
-/

namespace ListingQuery.Program

/-- What is printed for arguments that are no command. -/
def usage : String :=
  "usage: query -r FILE [--manifest] [QUERY]\n" ++
  "       validate [QUERY]\n" ++
  "       explain [--json] [QUERY]\n" ++
  "QUERY: any of " ++
  String.intercalate " " (CommandLine.Flag.ofQuery.map fun f => "--" ++ f.word)

/-- The variables of the environment that set limits, where they are set. -/
def readSettings : IO (List (String × String)) :=
  Limits.variableNames.filterMapM fun name => do
    return (← IO.getEnv name).map (name, ·)

/-- The texts of the files that can be read. -/
def readFiles (paths : List String) : IO (List (String × String)) :=
  paths.filterMapM fun (path : String) => do
    try
      return some (path, ← IO.FS.readFile path)
    catch _ =>
      return none

/-- The time in milliseconds. -/
def now : IO UInt64 := do
  return UInt64.ofNat (← Std.Time.Timestamp.now).toMillisecondsSinceUnixEpoch.val.toNat

/-- Runs a command line. -/
def run (args : List String) : IO UInt32 := do
  match Command.read? args with
  | none =>
    IO.eprintln usage
    return 2
  | some command =>
    let settings ← readSettings
    let files ← readFiles command.paths
    let started ← now
    match command.answer (Surroundings.ofTables settings files) with
    | .error e =>
      IO.eprintln e.report
      return 1
    | .ok a =>
      IO.print a.text
      if let some r := a.ran then
        let m := Manifest.ofRun r started (← now)
        let octets := (← IO.getRandomBytes 16).toList
        IO.eprintln (m.report (Manifest.identifier (Manifest.markRandom octets))).pretty
      return 0

end ListingQuery.Program

/-- Runs the command line that the program was called with. -/
def main (args : List String) : IO UInt32 :=
  ListingQuery.Program.run args
