import CommandRoutes.Document.TomlReader.Entries
import CommandRoutes.Document.TomlReader.Text
import CommandRoutes.Document.TomlReader.Word

/-!
# Reading TOML

A text is a sequence of statements, a line each: a table header, a header of
one more table in an array, or an assignment. The statements are read first and
then carried out in order. A key has at most 80 parts, and arrays and inline
tables stand at most 80 deep in each other. Inside an inline table, line ends
and comments may stand anywhere but inside a key.
-/
namespace CommandRoutes.Document.TomlReader

open JsonReader (after?)

/-- How many parts a key may have, and how deep arrays and inline tables may be nested. -/
def depthLimit : Nat := 80

/-! ## Keys and values -/

def isBarePart (c : Char) : Bool := c.isAlphanum || c = '-' || c = '_'

def simpleKey? (cs : List Char) : Option (String × List Char) :=
  match cs with
  | '"' :: rest => (line? '"' cs.length rest).map fun (text, left) => (String.ofList text, left)
  | '\'' :: rest => (line? '\'' cs.length rest).map fun (text, left) => (String.ofList text, left)
  | _ =>
    let name := cs.takeWhile isBarePart
    if name = [] then none else some (String.ofList name, cs.dropWhile isBarePart)

/-- At most `limit` keys with dots between them. -/
def keysWithin? : Nat → List Char → Option (List String × List Char)
  | 0, _ => none
  | limit + 1, cs => do
    let (key, left) ← simpleKey? (skipSpaces cs)
    match skipSpaces left with
    | '.' :: rest => (keysWithin? limit rest).map fun (keys, left) => (key :: keys, left)
    | left => return ([key], left)

def keys? : List Char → Option (List String × List Char) := keysWithin? depthLimit

mutual

/-- One value; `room` is how deep it may be nested, and `fuel` bounds the number of parts. -/
def value? (room : Nat) : Nat → List Char → Option (Document × List Char)
  | 0, _ => none
  | fuel + 1, cs =>
    match cs with
    | '"' :: _ => (string? '"' cs).map fun (text, left) => (.quoted (String.ofList text), left)
    | '\'' :: _ => (string? '\'' cs).map fun (text, left) => (.quoted (String.ofList text), left)
    | '[' :: rest =>
      if room = 0 then none
      else (items? (room - 1) fuel rest).map fun (items, left) => (.list items, left)
    | '\x7b' :: rest =>
      if room = 0 then none
      else (inline? (room - 1) fuel [] rest).map fun (entries, left) =>
        (.record (recordOf entries), left)
    | _ => word? cs

/-- The items of an array up to its bracket. -/
def items? (room : Nat) : Nat → List Char → Option (List Document × List Char)
  | 0, _ => none
  | fuel + 1, cs => do
    match ← skipLines? cs with
    | ']' :: left => return ([], left)
    | cs =>
      let (item, left) ← value? room fuel cs
      match ← skipLines? left with
      | ',' :: rest => (items? room fuel rest).map fun (items, left) => (item :: items, left)
      | ']' :: left => return ([item], left)
      | _ => none

/-- The fields of an inline table up to its brace, entered into what is there already. -/
def inline? (room : Nat) : Nat → Entries → List Char → Option (Entries × List Char)
  | 0, _, _ => none
  | fuel + 1, entries, cs => do
    match ← skipLines? cs with
    | '\x7d' :: left => return (entries, left)
    | cs =>
      let (keys, left) ← keys? cs
      let left ← after? ['='] (← skipLines? left)
      let (doc, left) ← value? room fuel (← skipLines? left)
      let entries ← assign? doc keys entries
      match ← skipLines? left with
      | ',' :: rest => inline? room fuel entries rest
      | '\x7d' :: left => return (entries, left)
      | _ => none

end

/-! ## Statements -/

inductive Statement
  | header (keys : List String)
  | nextTable (keys : List String)
  | assignment (keys : List String) (doc : Document)

def statement? (cs : List Char) : Option (Statement × List Char) := do
  match cs with
  | '[' :: '[' :: rest =>
    let (keys, left) ← keys? rest
    let left ← after? [']', ']'] left
    return (.nextTable keys, left)
  | '[' :: rest =>
    let (keys, left) ← keys? rest
    let left ← after? [']'] left
    return (.header keys, left)
  | _ =>
    let (keys, left) ← keys? cs
    let left ← after? ['='] left
    let (doc, left) ← value? depthLimit (2 * left.length + 2) (skipSpaces left)
    return (.assignment keys doc, left)

/-- The statements of a text; `fuel` bounds their number. -/
def statements? : Nat → List Char → Option (List Statement)
  | 0, _ => none
  | fuel + 1, cs => do
    match ← skipLines? cs with
    | [] => return []
    | cs =>
      let (s, left) ← statement? cs
      let left ← restOfLine? left
      (statements? fuel left).map (s :: ·)

/-- Carries out one statement, given the keys of the last header. -/
def perform? (state : List String × Entries) : Statement → Option (List String × Entries)
  | .assignment keys doc =>
    (within? (assign? doc keys) state.1 state.2).map fun entries => (state.1, entries)
  | .header keys =>
    match keys.getLast? with
    | none => none
    | some key => (within? (openTable? key) keys.dropLast state.2).map fun e => (keys, e)
  | .nextTable keys =>
    match keys.getLast? with
    | none => none
    | some key => (within? (startTable? key) keys.dropLast state.2).map fun e => (keys, e)

/-- Reads a whole text, with or without a byte order mark at its start. -/
def read? (text : String) : Option Document := do
  let cs := match text.toList with
    | '\ufeff' :: rest => rest
    | cs => cs
  let statements ← statements? (cs.length + 1) cs
  let (_, entries) ← statements.foldlM perform? ([], [])
  return .record (recordOf entries)

end CommandRoutes.Document.TomlReader
