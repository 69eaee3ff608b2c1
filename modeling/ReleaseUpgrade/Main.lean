import ReleaseUpgrade.CommandLine.Configuration
import ReleaseUpgrade.Definition.Resource

/-!
# The command

`Ending.ofArguments` is what the command prints and how it ends.

* With `crd` it prints the resource definitions, one YAML document each.
* A configuration with a problem ends it before anything else is done.
* Without a connection to a cluster there is nothing to watch, so it ends there too.
-/

namespace ReleaseUpgrade

/-- what the command leaves behind -/
structure Ending where
  exitCode : UInt32 := 0
  output : String := ""
  complaint : String := ""

namespace Ending

/-- the options, one a line -/
def usage : String :=
  "Usage: ruo [OPTIONS] [COMMAND]\n\nCommands:\n  crd\n  help\n\nOptions:\n" ++
    String.join (Flag.all.map fun f =>
      "  --" ++ f.option ++ " <" ++ f.environmentVariable ++ ">\n") ++
    "  -h, --help\n  -V, --version\n"

/-- an argument cannot be used -/
def refused (reason : String) : Ending where
  exitCode := 2
  complaint := "error: " ++ reason ++ "\n\nFor more information, try '--help'.\n"

def ofUsageError : UsageError → Ending
  | .unknownArgument => refused "unexpected argument found"
  | .missingValue => refused "a value is required for an option but none was supplied"
  | .invalidValue => refused "the value of an option is not a number in its range"
  | .repeated => refused "an option cannot be used multiple times"
  | .unknownCommand => refused "unrecognized subcommand"
  | .surplusValue => refused "an option without a value was given one"
  | .help => { output := usage }
  | .version => { output := "ruo\n" }

/-- the resource definitions as YAML documents -/
def definitions : String :=
  String.join (ResourceDefinition.all.map fun d => "---\n" ++ d.toYaml)

def ofConfiguration (c : Configuration) : Ending :=
  match c.problem? with
  | some problem =>
    { exitCode := 1, complaint := "Invalid configuration: " ++ problem ++ "\n" }
  | none =>
    if c.definitions then { output := definitions }
    else { exitCode := 1, complaint := "Operator failed: no connection to a cluster\n" }

/-- how the command ends with these arguments in this environment -/
def ofArguments (arguments : List String) (environment : List (String × String)) : Ending :=
  match Configuration.ofArguments arguments environment with
  | .ok c => ofConfiguration c
  | .error e => ofUsageError e

end Ending

end ReleaseUpgrade

open ReleaseUpgrade in
/-- the command, with the variables of the environment that stand for its options -/
def main (arguments : List String) : IO UInt32 := do
  let environment ← Flag.all.filterMapM fun f => do
    return (← IO.getEnv f.environmentVariable).map fun value => (f.environmentVariable, value)
  let ending := Ending.ofArguments arguments environment
  IO.print ending.output
  IO.eprint ending.complaint
  return ending.exitCode
