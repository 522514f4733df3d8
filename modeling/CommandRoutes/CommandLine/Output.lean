import CommandRoutes.CommandLine.Command
import CommandRoutes.Listing
import CommandRoutes.Report
import CommandRoutes.Table.File
import CommandRoutes.Table.Registration

/-!
# What commands print

Every command reads a route table and builds its dispatcher under the options of
the table, with the environment's overrides. Then `inspect` lists it,
`resolve` reports a dispatch of its arguments, and `check` counts.
-/
namespace CommandRoutes.CommandLine

/-- Why a command prints nothing. -/
inductive Failure
  /-- There is no such file. -/
  | unreadable
  /-- The file's text is not a table. -/
  | malformed
  | table (fault : TableFault)
  | dispatch (cause : Fault)

def Command.routes : Command → String
  | inspect routes _ | resolve routes _ _ | check routes => routes

def countLine (d : Dispatcher Id) : String :=
  "ok: " ++ toString d.publicRoutes.length ++ " routes with callbacks, " ++ toString d.tree.size ++
    " path items\n"

/-- The output of a command on a dispatcher. -/
def Command.outputOn (command : Command) (d : Dispatcher Id) : Except Fault String :=
  match command with
  | inspect _ all => .ok (d.listing all)
  | check _ => .ok (countLine d)
  | resolve _ json arguments =>
    (Id.run (d.report (.ofArguments arguments))).map fun report =>
      if json then report.toJson.pretty ++ "\n" else report.text

/-- The output of a command, given its file's text, if there is such a file. -/
def Command.output (command : Command) (format : Format) (text : Option String)
    (environment : String → Option String) : Except Failure String := do
  let text ← match text with
    | some text => .ok text
    | none => .error .unreadable
  let table ← match Table.read? format text with
    | some table => .ok table
    | none => .error .malformed
  let dispatcher ← (Dispatcher.ofEntries (table.options.override environment) table.routes).mapError
    Failure.table
  (command.outputOn dispatcher).mapError Failure.dispatch

end CommandRoutes.CommandLine
