import CommandRoutes.Switch.Set

/-!
# What a dispatch is given

Command tokens lead to a path item; switches are supplied under short and under
long names. Raw command line arguments are split as follows.

- `--name` is a long switch, `--name=value` gives it a value.
- `-abc` is three short switches, and in `-abc=value` the last one has the value.
- A lone `-`, whatever does not begin with `-`, and whatever follows the first
  `--` are commands.

A switch that is repeated collects the values.
-/
namespace CommandRoutes

structure Invocation where
  commands : List String := []
  short : Supplied := .empty
  long : Supplied := .empty
  deriving DecidableEq

namespace Invocation

/-- Splits at the first `=`; there may be none. -/
def splitValue (text : List Char) : List Char × List String :=
  match text.dropWhile (· ≠ '=') with
  | [] => (text, [])
  | _ :: value => (text.takeWhile (· ≠ '='), [String.ofList value])

def addCommand (input : Invocation) (token : String) : Invocation :=
  { input with commands := input.commands ++ [token] }

def addLong (input : Invocation) (name : List Char) (values : List String) : Invocation :=
  { input with long := Supplied.append input.long (String.ofList name) values }

/-- Adds one short switch a character; the values go to the last one. -/
def addCluster (input : Invocation) : List Char → List String → Invocation
  | [], _ => input
  | [c], values => { input with short := Supplied.append input.short c.toString values }
  | c :: cs, values =>
    addCluster { input with short := Supplied.append input.short c.toString [] } cs values

/-- Reads one argument that is not `--`, before any `--`. -/
def addArgument (input : Invocation) (argument : String) : Invocation :=
  match argument.toList with
  | '-' :: '-' :: text => let (name, values) := splitValue text; input.addLong name values
  | ['-'] => input.addCommand argument
  | '-' :: text => let (names, values) := splitValue text; input.addCluster names values
  | _ => input.addCommand argument

def addArguments (input : Invocation) : List String → Invocation
  | [] => input
  | "--" :: rest => { input with commands := input.commands ++ rest }
  | argument :: rest => (input.addArgument argument).addArguments rest

def ofArguments (arguments : List String) : Invocation := addArguments {} arguments

end Invocation
end CommandRoutes
