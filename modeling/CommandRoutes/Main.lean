import CommandRoutes.CommandLine.Output

/-!
# The program

Reads the file that a command names, prints what the command prints, and writes
errors to the error channel.
-/
namespace CommandRoutes.CommandLine

def usage : String :=
  "Inspect and exercise command route tables\n\n" ++
  "Usage: <COMMAND> --routes <FILE>\n\n" ++
  "Commands:\n" ++
  "  inspect  Print every route of a table with its switches [--all]\n" ++
  "  resolve  Dispatch the arguments after -- against a table [--json]\n" ++
  "  check    Build the route tree of a table and report the first error\n" ++
  "  help     Print this message\n"

def Refusal.message : Refusal → String
  | nothingAsked | helpAsked => usage
  | versionAsked => "command routes\n"
  | unknownCommand => "error: unrecognized subcommand\n"
  | unknownArgument => "error: unexpected argument\n"
  | repeated => "error: an argument cannot be used multiple times\n"
  | needlessValue => "error: unexpected value for a flag\n"
  | missingValue => "error: a value is required for '--routes <FILE>'\n"
  | missingRoutes => "error: the argument '--routes <FILE>' was not provided\n"

/-- Asking for help or for the version is no mistake. -/
def Refusal.isMistake : Refusal → Bool
  | helpAsked | versionAsked => false
  | _ => true

def Failure.message (routes : String) : Failure → String
  | unreadable => "Error: reading route table " ++ routes ++ "\n"
  | malformed => "Error: parsing route table " ++ routes ++ "\n"
  | table fault => "Error: " ++ fault.place ++ "\n\nCaused by:\n    " ++ fault.cause.message ++ "\n"
  | dispatch cause => "Error: " ++ cause.message ++ "\n"

/-- The environment variables that commands look at. -/
def environment : IO (String → Option String) := do
  let names :=
    ["VERBROUTER_ROUTES", "VERBROUTER_APP_NAME", "VERBROUTER_HELP_TYPE",
      "VERBROUTER_STRICT_SWITCHES"]
  let values ← names.mapM fun name => do return (name, ← IO.getEnv name)
  return fun name => (values.lookup name).join

def readFile? (path : String) : IO (Option String) := do
  try
    let text ← IO.FS.readFile path
    return some text
  catch _ => return none

end CommandRoutes.CommandLine

open CommandRoutes CommandLine in
def main (arguments : List String) : IO UInt32 := do
  let environment ← environment
  match Command.ofArguments (environment "VERBROUTER_ROUTES") arguments with
  | .error refusal =>
    if refusal.isMistake then
      IO.eprint refusal.message
      return 2
    else
      IO.print refusal.message
      return 0
  | .ok command =>
    let text ← readFile? command.routes
    match command.output (.ofExtension (Format.extension command.routes)) text environment with
    | .ok output =>
      IO.print output
      return 0
    | .error failure =>
      IO.eprint (failure.message command.routes)
      return 1
