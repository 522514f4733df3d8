import CommandRoutes.Document.Basic

/-!
# Tables in the making

While the statements of a TOML text are carried out, a table remembers how it
came about, for that decides what may still be done to it. A header opens a
table once, and may pass through any table on its way. A dotted key passes
through tables that nothing has opened yet, and gives its value to a table that
only dotted keys have made. Values, inline tables among them, are closed, and
nothing is defined twice.
-/
namespace CommandRoutes.Document.TomlReader

inductive Origin
  /-- It lies on the path of a header. -/
  | passed
  /-- It lies on the path of a dotted key. -/
  | dotted
  /-- A header opened it. -/
  | opened
  deriving DecidableEq

/-- What stands under a key. -/
inductive Entry
  | value (doc : Document)
  | table (origin : Origin) (entries : List (String × Entry))
  /-- The tables of an array of tables, last one first. -/
  | tables (items : List (List (String × Entry)))

abbrev Entries := List (String × Entry)

/-- Replaces what stands under `key`, or adds it at the end. -/
def Entries.put (key : String) (e : Entry) : Entries → Entries
  | [] => [(key, e)]
  | (k, old) :: rest => if k = key then (k, e) :: rest else (k, old) :: Entries.put key e rest

/-- Changes the table at the end of a header's path. Tables on the way are made when missing, and
an array of tables is entered at its last table. -/
def within? (change : Entries → Option Entries) : List String → Entries → Option Entries
  | [], entries => change entries
  | key :: path, entries =>
    match List.lookup key entries with
    | none =>
      (within? change path []).map fun inner => Entries.put key (.table .passed inner) entries
    | some (.table origin inner) =>
      (within? change path inner).map fun inner => Entries.put key (.table origin inner) entries
    | some (.tables (last :: items)) =>
      (within? change path last).map fun last => Entries.put key (.tables (last :: items)) entries
    | some _ => none

/-- Gives a dotted key a value that it does not have yet. -/
def assign? (doc : Document) : List String → Entries → Option Entries
  | [], _ => none
  | [key], entries =>
    match List.lookup key entries with
    | none => some (Entries.put key (.value doc) entries)
    | some _ => none
  | key :: next :: path, entries =>
    match List.lookup key entries with
    | none =>
      (assign? doc (next :: path) []).map fun inner =>
        Entries.put key (.table .dotted inner) entries
    | some (.table origin inner) =>
      if origin = .dotted ∨ (origin = .passed ∧ path ≠ []) then
        (assign? doc (next :: path) inner).map fun inner =>
          Entries.put key (.table origin inner) entries
      else none
    | some (.tables (last :: items)) =>
      if path = [] then none
      else
        (assign? doc (next :: path) last).map fun last =>
          Entries.put key (.tables (last :: items)) entries
    | some _ => none

/-- Opens the table under `key`. -/
def openTable? (key : String) (entries : Entries) : Option Entries :=
  match List.lookup key entries with
  | none => some (Entries.put key (.table .opened []) entries)
  | some (.table .passed inner) => some (Entries.put key (.table .opened inner) entries)
  | some _ => none

/-- Starts one more table in the array under `key`. -/
def startTable? (key : String) (entries : Entries) : Option Entries :=
  match List.lookup key entries with
  | none => some (Entries.put key (.tables [[]]) entries)
  | some (.tables items) => some (Entries.put key (.tables ([] :: items)) entries)
  | some _ => none

mutual

def Entry.document : Entry → Document
  | .value doc => doc
  | .table _ entries => .record (recordOf entries)
  | .tables items => .list (recordsOf items).reverse

def recordOf : List (String × Entry) → List (Document × Document)
  | [] => []
  | (key, e) :: rest => (.quoted key, e.document) :: recordOf rest

def recordsOf : List (List (String × Entry)) → List Document
  | [] => []
  | entries :: rest => .record (recordOf entries) :: recordsOf rest

end

end CommandRoutes.Document.TomlReader
