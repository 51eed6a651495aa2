import LintGate.Host.Recording
import LintGate.Json.Reader
import LintGate.Program

/-!
# The command line

The program as a command: its arguments make the invocation, the environment fills in what they
leave open, and the recorded host that it runs against is read from standard input. Without a
recording the host is empty, so no tool is found on it.

Only this module does anything; all it does is read, ask `Program.run`, and print.
-/

namespace LintGate.CommandLine

/-- The environment variables that fill in options. -/
def variableNames : List String :=
  [Valued.linter, .standard, .strictness, .event].filterMap Invocation.inputName?

/-- The variables that have a value. -/
def environment : IO (Table String String) := do
  let found ← variableNames.mapM fun name => do
    return (← IO.getEnv name).map fun value => (name, value)
  return found.filterMap id

/-- The recorded host in a document; a blank document records an empty one. -/
def hostOf (document : String) : Except String Host :=
  match Text.trimmed? document with
  | none => .ok {}
  | some document =>
    match Json.read document with
    | .error f => .error f.message
    | .ok j =>
      match (Recording.ofJson j).named "Recording" with
      | .error i => .error i.message
      | .ok r => .ok r.host

/-- **The program run for a command line.** -/
def run (arguments : List String) : IO UInt32 := do
  match Invocation.ofCommandLine (← environment) arguments with
  | .error f =>
    IO.eprintln f.message
    return UInt32.ofNat Program.usage
  | .ok i =>
    match hostOf (← (← IO.getStdin).readToEnd) with
    | .error why =>
      IO.eprintln ("Unusable recording: " ++ why)
      return UInt32.ofNat Program.failure
    | .ok h =>
      let ending := Program.run h i
      IO.print (Program.output (Program.display i) ending.said)
      if let some f := ending.fault then IO.eprintln (f.kind.name ++ ": " ++ f.text)
      return UInt32.ofNat ending.exit

end LintGate.CommandLine

/-- **The command.** -/
def main (arguments : List String) : IO UInt32 := LintGate.CommandLine.run arguments
