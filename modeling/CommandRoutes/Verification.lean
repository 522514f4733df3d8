import CommandRoutes.Options
import CommandRoutes.Tree.Basic

/-!
# Verifying supplied switches

The switches that count at an item are entered into tables, nearest first: its
own, for a switch item those of its parent, the common switches from the item
up to the root, and one optional switch for each id that a predicate of the
branch asks about. The first switch entered under a name decides how a switch
supplied under that name is checked, while any required switch of a name is
satisfied by supplying it.

Verification goes over the short names and then over the long names, each in
name order, and keeps a mark for each required switch that is still missing. It
reports the first thing wrong, and at last the first switch still missing. The
merged view shows each supplied switch under all names of the switch that
decides about it, and the defaults of optional switches that are not supplied.
-/
namespace CommandRoutes

/-- The two kinds of names that a switch can be supplied under. -/
inductive NameKind
  | short
  | long
  deriving DecidableEq

namespace NameKind

def other : NameKind → NameKind
  | short => long
  | long => short

/-- What stands in front of a name. -/
def dashes : NameKind → String
  | short => "-"
  | long => "--"

/-- A switch supplied under a name of this kind is supplied under its other name too. -/
def bothSupplied (kind : NameKind) (name otherName : String) : Fault :=
  match kind with
  | short => .bothNamesSupplied name otherName
  | long => .bothNamesSupplied otherName name

end NameKind

/-- The name of one kind, if the switch has one. -/
def Switch.nameOf (s : Switch) : NameKind → Option String
  | .short => s.short
  | .long => s.long

/-- The optional switch that a predicate's id declares, if the id can be a switch name. -/
def Predicate.impliedSwitch? (p : Predicate) : Option Switch :=
  if p.id.length = 1 then (Switch.new? (some p.id) none).toOption
  else (Switch.new? none (some p.id)).toOption

/-- The names of one kind. Required switches are given by their positions among all of them. -/
structure NameTable where
  required : NameMap Nat := .empty
  optional : NameMap Switch := .empty
  deriving DecidableEq

namespace NameTable

def knows (names : NameTable) (name : String) : Bool :=
  names.required.contains name || names.optional.contains name

/-- Enters a required switch under its name unless the name is known. -/
def enterRequired (names : NameTable) (name : Option String) (position : Nat) : NameTable :=
  match name with
  | none => names
  | some n =>
    if names.knows n then names else { names with required := names.required.insert n position }

/-- Enters an optional switch under its name unless the name is known. -/
def enterOptional (names : NameTable) (name : Option String) (switch : Switch) : NameTable :=
  match name with
  | none => names
  | some n =>
    if names.knows n then names else { names with optional := names.optional.insert n switch }

end NameTable

/-- The switches that count at an item. -/
structure SwitchTables where
  /-- All required switches, nearest first. -/
  required : List Switch := []
  short : NameTable := {}
  long : NameTable := {}
  deriving DecidableEq

namespace SwitchTables

def names (tables : SwitchTables) : NameKind → NameTable
  | .short => tables.short
  | .long => tables.long

/-- The switch that decides about a supplied name. -/
def find? (tables : SwitchTables) (kind : NameKind) (name : String) : Option Switch :=
  match (tables.names kind).required.get? name with
  | some position => tables.required[position]?
  | none => (tables.names kind).optional.get? name

def addRequired (tables : SwitchTables) (switch : Switch) : SwitchTables where
  required := tables.required ++ [switch]
  short := tables.short.enterRequired switch.short tables.required.length
  long := tables.long.enterRequired switch.long tables.required.length

def addOptional (tables : SwitchTables) (switch : Switch) : SwitchTables :=
  { tables with
    short := tables.short.enterOptional switch.short switch
    long := tables.long.enterOptional switch.long switch }

/-- Adds a required set and then an optional set. -/
def addSets (tables : SwitchTables) (required optional : Switches) : SwitchTables :=
  optional.toList.foldl addOptional (required.toList.foldl addRequired tables)

end SwitchTables

namespace CommandTree

def addOwn (t : CommandTree) (tables : SwitchTables) (id : ItemId) : SwitchTables :=
  match t.get? id with
  | some item => tables.addSets item.required item.optional
  | none => tables

def addCommon (t : CommandTree) (tables : SwitchTables) (id : ItemId) : SwitchTables :=
  match t.branch? id with
  | some b => tables.addSets b.commonRequired b.commonOptional
  | none => tables

/-- The parent of a switch item, whose own switches count for the switch item too. -/
def verbOf? (t : CommandTree) (id : ItemId) : Option ItemId :=
  match t.get? id with
  | some { kind := .switch _, parent, .. } => parent
  | _ => none

/-- The switches that the predicates below a branch ask about. -/
def impliedSwitches (t : CommandTree) (id : ItemId) : List Switch :=
  match t.branch? id with
  | none => []
  | some b =>
    (b.switchItems.flatMap fun item => ((t.get? item).bind PathItem.predicates?).getD [])
      |>.filterMap Predicate.impliedSwitch?

/-- The tables of an item. -/
def switchTables (t : CommandTree) (id : ItemId) : SwitchTables :=
  let own := t.addOwn {} id
  let (own, asked) := match t.verbOf? id with
    | some verb => (t.addOwn own verb, verb)
    | none => (own, id)
  (t.impliedSwitches asked).foldl SwitchTables.addOptional ((t.ancestry id).foldl t.addCommon own)

end CommandTree

namespace SwitchTables

/-- Reports the first parameter that has no value. -/
def valueFault? (switch : Switch) (values : List String) : Option Fault :=
  (switch.parameters[values.length]?).map (.missingValue switch.spelling ·)

/-- Takes the marks from the required switches that have this name. -/
def satisfy (tables : SwitchTables) (kind : NameKind) (name : String) (missing : List Bool) :
    List Bool :=
  List.zipWith (fun switch mark => mark && switch.nameOf kind != some name) tables.required missing

/-- Checks the switches supplied under names of one kind, one after the other; `others` are those
supplied under names of the other kind. Answers with the marks that are left. -/
def check (tables : SwitchTables) (strict : Bool) (kind : NameKind) (others : Supplied) :
    List (String × List String) → List Bool → Except Fault (List Bool)
  | [], missing => .ok missing
  | (name, values) :: rest, missing =>
    match tables.find? kind name with
    | none =>
      if strict then .error (.unknownSwitch (kind.dashes ++ name))
      else tables.check strict kind others rest missing
    | some switch =>
      match (switch.nameOf kind.other).filter others.contains with
      | some otherName => .error (kind.bothSupplied name otherName)
      | none =>
        match valueFault? switch values with
        | some fault => .error fault
        | none => tables.check strict kind others rest (tables.satisfy kind name missing)

/-- The whole verification, apart from asking for help. -/
def verify (tables : SwitchTables) (strict : Bool) (short long : Supplied) : Except Fault Unit :=
  let missing := tables.required.map fun _ => true
  match tables.check strict .short long short.entries missing with
  | .error fault => .error fault
  | .ok missing =>
    match tables.check strict .long short long.entries missing with
    | .error fault => .error fault
    | .ok missing =>
      match (tables.required.zip missing).find? Prod.snd with
      | some (switch, _) => .error (.absentSwitch switch.spelling)
      | none => .ok ()

/-- What a supplied switch writes into the merged view. -/
def written (tables : SwitchTables) (kind : NameKind) (supplied : String × List String) :
    List (String × List String) :=
  match tables.find? kind supplied.1 with
  | some switch => switch.names.map (·, supplied.2)
  | none => [supplied]

/-- Writes the default of a switch none of whose names is taken. -/
def writeDefault (view : Supplied) (switch : Switch) : Supplied :=
  match switch.default with
  | none => view
  | some values =>
    if switch.names.any view.contains then view
    else view.insertAll (switch.names.map (·, values))

/-- The optional switches of one kind of name that have defaults. -/
def defaulted (tables : SwitchTables) (kind : NameKind) : List Switch :=
  (tables.names kind).optional.values.filter fun s => s.default.isSome

/-- The merged view, with each collection taken in a given order. -/
def mergeInOrder (tables : SwitchTables) (short long : List (String × List String))
    (shortDefaults longDefaults : List Switch) : Supplied :=
  (shortDefaults ++ longDefaults).foldl writeDefault
    (.ofList (short.flatMap (tables.written .short) ++ long.flatMap (tables.written .long)))

def merge (tables : SwitchTables) (short long : Supplied) : Supplied :=
  tables.mergeInOrder short.entries long.entries (tables.defaulted .short) (tables.defaulted .long)

end SwitchTables

namespace CommandTree

/-- Accepts the supplied switches or reports the first fault; asking for help is always fine. -/
def verify (t : CommandTree) (id : ItemId) (short long : Supplied) (options : Options) :
    Except Fault Unit :=
  if options.asksForHelp short long then .ok ()
  else (t.switchTables id).verify options.strict short long

/-- The supplied switches as callbacks see them. -/
def mergedView (t : CommandTree) (id : ItemId) (short long : Supplied) : Supplied :=
  (t.switchTables id).merge short long

end CommandTree
end CommandRoutes
