/-!
# Commands of the command line

There are three commands, each with an option `--routes FILE` (or `-r FILE`)
that an environment variable may stand in for: `inspect` has a flag `--all`,
`resolve` has a flag `--json` and takes arguments after `--`, and `check` has
nothing else. A lone first word `help` asks for help as `-h` and `--help` do.

Arguments are taken from left to right. The value of an option is examined when
the next option, flag or trailing argument is taken, or at the end; an argument
that nothing accepts is refused before that. An option's value may not look like
an option. Giving an option or a flag twice is refused.
-/
namespace CommandRoutes.CommandLine

inductive Command
  | inspect (routes : String) (all : Bool)
  | resolve (routes : String) (json : Bool) (arguments : List String)
  | check (routes : String)
  deriving DecidableEq, Repr

/-- Why arguments make no command. -/
inductive Refusal
  /-- There are no arguments at all. -/
  | nothingAsked
  | helpAsked
  | versionAsked
  | unknownCommand
  | unknownArgument
  /-- An option or flag is given twice. -/
  | repeated
  /-- A flag is given a value. -/
  | needlessValue
  /-- An option has no value, or the empty one. -/
  | missingValue
  | missingRoutes
  deriving DecidableEq, Repr

inductive Verb
  | inspect
  | resolve
  | check
  deriving DecidableEq, Repr

def Verb.ofName? (name : String) : Option Verb :=
  if name = "inspect" then some .inspect
  else if name = "resolve" then some .resolve
  else if name = "check" then some .check
  else none

/-- The name of the verb's flag. -/
def Verb.flag? : Verb → Option String
  | inspect => some "all"
  | resolve => some "json"
  | check => none

/-- An option is written with a value, with `=` and nothing after it counting as the empty value,
or waits for the next argument. -/
inductive Pending
  | none
  | waiting
  | given (value : String)

/-- What the arguments taken so far amount to. -/
structure Progress where
  routes : Option String := .none
  pending : Pending := .none
  flag : Bool := false

namespace Progress

/-- Examines the value of the option taken last. -/
def settle (p : Progress) : Except Refusal Progress :=
  match p.pending with
  | .none => .ok p
  | .waiting => .error .missingValue
  | .given value =>
    if p.routes.isSome then .error .repeated
    else if value = "" then .error .missingValue
    else .ok { p with routes := some value, pending := .none }

/-- Takes the option with its value, if it is written with one. -/
def takeRoutes (p : Progress) (value : Option String) : Except Refusal Progress := do
  let p ← p.settle
  match value with
  | some value => settle { p with pending := .given value }
  | .none => return { p with pending := .waiting }

def takeFlag (p : Progress) : Except Refusal Progress := do
  let p ← p.settle
  if p.flag then .error .repeated else return { p with flag := true }

/-- Asking for help also settles the option before it. -/
def askHelp (p : Progress) : Except Refusal Progress := do
  let _ ← p.settle
  .error .helpAsked

/-- The command, once all arguments are taken. -/
def finish (p : Progress) (verb : Verb) (environment : Option String)
    (arguments : List String) : Except Refusal Command := do
  let p ← p.settle
  let routes ← match p.routes, environment with
    | some routes, _ => pure routes
    | .none, some routes => if routes = "" then .error .missingValue else pure routes
    | .none, .none => .error .missingRoutes
  return match verb with
  | .inspect => .inspect routes p.flag
  | .resolve => .resolve routes p.flag arguments
  | .check => .check routes

end Progress

/-- A long option's name, and the text after its first `=`. -/
def splitLong (text : List Char) : String × Option String :=
  match text.dropWhile (· ≠ '=') with
  | [] => (String.ofList text, none)
  | _ :: value => (String.ofList (text.takeWhile (· ≠ '=')), some (String.ofList value))

/-- What is written behind the letter of an option: nothing, a value, or `=` and a value. -/
def attached : List Char → Option String
  | [] => none
  | '=' :: value => some (String.ofList value)
  | value => some (String.ofList value)

def takeLong (verb : Verb) (p : Progress) (text : List Char) : Except Refusal Progress :=
  let (name, value) := splitLong text
  if name = "routes" then p.takeRoutes value
  else if verb.flag? = some name then
    if value.isSome then .error .needlessValue else p.takeFlag
  else if name = "help" then
    if value.isSome then .error .needlessValue else p.askHelp
  else .error .unknownArgument

def takeShort (p : Progress) (letter : Char) (rest : List Char) : Except Refusal Progress :=
  if letter = 'r' then p.takeRoutes (attached rest)
  else if letter = 'h' then p.askHelp
  else .error .unknownArgument

/-- What follows `--`. -/
def takeTrailing (verb : Verb) (p : Progress) (environment : Option String)
    (arguments : List String) : Except Refusal Command :=
  if arguments = [] ∨ verb = .resolve then p.finish verb environment arguments
  else .error .unknownArgument

/-- The arguments of a verb. -/
def takeArguments (verb : Verb) (environment : Option String) :
    Progress → List String → Except Refusal Command
  | p, [] => p.finish verb environment []
  | p, argument :: rest =>
    match argument.toList with
    | ['-', '-'] => takeTrailing verb p environment rest
    | '-' :: '-' :: text =>
      (takeLong verb p text).bind fun p => takeArguments verb environment p rest
    | '-' :: letter :: text =>
      (takeShort p letter text).bind fun p => takeArguments verb environment p rest
    | _ =>
      match p.pending with
      | .waiting => takeArguments verb environment { p with pending := .given argument } rest
      | _ => .error .unknownArgument

/-- Whether the word names a verb or is `help`. -/
def isCommandName (word : String) : Bool := word = "help" || (Verb.ofName? word).isSome

/-- The words after `help` may name one command. -/
def helpOn : List String → Refusal
  | [] => .helpAsked
  | [word] => if isCommandName word then .helpAsked else .unknownCommand
  | _ => .unknownCommand

/-- The first argument when it looks like an option. -/
def refuseOption (text : List Char) : Refusal :=
  match text with
  | '-' :: long =>
    let (name, value) := splitLong long
    if name = "help" ∨ name = "version" then
      if value.isSome then .needlessValue
      else if name = "help" then .helpAsked
      else .versionAsked
    else .unknownArgument
  | 'h' :: _ => .helpAsked
  | 'V' :: _ => .versionAsked
  | _ => .unknownArgument

/-- Makes a command of the arguments; `environment` is what stands in for the routes. -/
def Command.ofArguments (environment : Option String) : List String → Except Refusal Command
  | [] => .error .nothingAsked
  | "help" :: rest => .error (helpOn rest)
  | "--" :: rest =>
    match rest with
    | [] => .error .nothingAsked
    | word :: _ => .error (if isCommandName word then .unknownArgument else .unknownCommand)
  | word :: rest =>
    match Verb.ofName? word with
    | some verb => takeArguments verb environment {} rest
    | none =>
      match word.toList with
      | '-' :: c :: text => .error (refuseOption (c :: text))
      | _ => .error .unknownCommand

end CommandRoutes.CommandLine
