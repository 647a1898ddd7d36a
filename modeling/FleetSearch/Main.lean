import FleetSearch.CommandLine

/-! # The program -/
namespace FleetSearch.CommandLine

/-- The text of a source; none if it cannot be read. -/
def readSource (source : Source) : IO (Option String) :=
  try
    match source with
    | .standardInput => return some (← (← IO.getStdin).readToEnd)
    | .file path => return some (← IO.FS.readFile path)
  catch _ => return none

def report : Outcome → IO UInt32
  | .printed text => do
    IO.print text
    return 0
  | .failed failure => do
    IO.eprintln ("Error: " ++ failure.message)
    return 1
  | .misused _ => do
    IO.eprint usage
    return 2

end FleetSearch.CommandLine

open FleetSearch CommandLine

def main (arguments : List String) : IO UInt32 := do
  let names := settingOptions.filterMap (·.environmentName)
  let found ← names.filterMapM fun name => do return (← IO.getEnv name).map (name, ·)
  match start arguments (fun name => found.lookup name) with
  | .error outcome => report outcome
  | .ok invocation => report (invocation.outcome (← readSource invocation.source))
