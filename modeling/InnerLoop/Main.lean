import InnerLoop.Command.Rehearsal

/-!
# The command line

The arguments and the environment say what to do, and standard input shows the objects of a cluster,
one to a line. What is left of them after the command is written to standard output.

- `main`: the program. It ends with 0, or with 1 if the command fails and with 2 if it is not
  understood.
-/

namespace InnerLoop

/-- The variables of the environment that say something about the configuration. -/
def readVariables : IO TextMap := do
  let found ← Config.variableNames.filterMapM fun name => do
    return (← IO.getEnv name).map fun value => (name, value)
  return .ofList found

/-- The lines of standard input. -/
def readLines : IO (List String) := do
  let text ← (← IO.getStdin).readToEnd
  return Text.pieces '\n' text

/-- What to say when the command is not understood. -/
def UsageFault.message : UsageFault → String
  | .helpWanted | .nothingSaid =>
    "commands: push, to-dev, to-build, rebuild, watch, env, storage mount, storage unmount"
  | .versionWanted => "0.1.0"
  | _ => "the command is not understood"

/-- How the program ends when the command is not understood, or when it was only asked about. -/
def UsageFault.exitCode : UsageFault → UInt32
  | .helpWanted | .versionWanted => 0
  | _ => 2

/-- Says what went wrong. -/
def giveUp (message : String) : IO UInt32 := do
  IO.eprintln ("Error: " ++ message)
  return 1

/-- Rehearses a command on the objects that standard input shows. -/
def runCommand (ns : Option String) (command : Command) : IO UInt32 := do
  match Config.ofVariables (← readVariables) with
  | .error fault => giveUp (CommandFault.config fault).message
  | .ok config =>
    match rehearse (config.within ns) command (← readLines) with
    | .error fault => giveUp fault.message
    | .ok (.error fault) => giveUp fault.message
    | .ok (.ok cluster) =>
      for v in cluster.written do
        IO.println v.render
      return 0

end InnerLoop

open InnerLoop in
/-- Rehearses the command that the arguments name. -/
def main (args : List String) : IO UInt32 := do
  match Command.parse args with
  | .error fault =>
    IO.eprintln fault.message
    return fault.exitCode
  | .ok (ns, command) => runCommand ns command
