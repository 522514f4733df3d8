import CommandRoutes.Text.Quoted

/-!
# What can go wrong with routes, switches and dispatches

Each fault carries the texts that its message names. Texts that a user wrote
are quoted in the message; routes of items and switch names stand bare. Every
fault belongs to one kind, `Fault.kind`.
-/
namespace CommandRoutes

inductive FaultKind
  /-- A malformed route or predicate text. -/
  | malformed
  /-- A clash between path items, aliases or common switches. -/
  | clash
  /-- A switch whose names have a wrong form. -/
  | illFormedSwitch
  /-- Supplied switches that a dispatch rejects. -/
  | rejectedSwitches
  /-- A callback that failed. -/
  | callback
  /-- Command tokens that lead nowhere. -/
  | noRoute
  deriving DecidableEq, Repr

/-- Positions are byte offsets into the text that is read. -/
inductive Fault
  /-- A `]` closes no bracket group. -/
  | strayClose (input : String) (position : Nat)
  /-- A bracket group is not closed before the next one or the end. -/
  | openGroup (input : String) (position : Nat)
  | brokenQuotation (expression : String)
  | missingId (input : String)
  /-- A character stands where none of its kind may. -/
  | strayCharacter (input : String) (found : Char)
  | emptyName (route : String)
  | blankInName (route segment : String)
  /-- A segment that ends routes stands before the end. -/
  | notLast (route segment : String)
  | secondDynamic (parent existing requested : String)
  | secondSpread (parent existing requested : String)
  /-- A sibling answers to the alias, or the alias stands in the way of a new sibling. -/
  | aliasTaken (parent aliasName : String)
  | noAliasesHere (item : String)
  | noBranch (item : String)
  | commonNameTaken (item name : String)
  | namelessSwitch
  | badShortName (name : String)
  | badLongName (name : String)
  | unknownSwitch (switch : String)
  /-- A required switch is not supplied. -/
  | absentSwitch (switch : String)
  | bothNamesSupplied (short long : String)
  | missingValue (switch parameter : String)
  /-- The callback at this position among those of its item failed. -/
  | failedCallback (item : String) (index : Nat) (cause : String)
  | noRoute (commands : List String)
  deriving DecidableEq, Repr

namespace Fault
open Text

def kind : Fault → FaultKind
  | strayClose .. | openGroup .. | brokenQuotation .. | missingId .. | strayCharacter ..
  | emptyName .. | blankInName .. | notLast .. => .malformed
  | secondDynamic .. | secondSpread .. | aliasTaken .. | noAliasesHere .. | noBranch ..
  | commonNameTaken .. => .clash
  | namelessSwitch | badShortName .. | badLongName .. => .illFormedSwitch
  | unknownSwitch .. | absentSwitch .. | bothNamesSupplied .. | missingValue .. =>
    .rejectedSwitches
  | failedCallback .. => .callback
  | noRoute .. => .noRoute

def message : Fault → String
  | strayClose input position =>
    "unmatched ']' at position " ++ toString position ++ " in " ++ quoted input
  | openGroup input position =>
    "unclosed '[' at position " ++ toString position ++ " in " ++ quoted input
  | brokenQuotation expression => "bad quoting in switch expression " ++ quoted expression
  | missingId input => "empty switch id in " ++ quoted input
  | strayCharacter input found =>
    "unexpected character " ++ quotedChar found ++ " outside brackets in " ++ quoted input
  | emptyName route => "empty segment in route " ++ quoted route
  | blankInName route segment =>
    "segment " ++ quoted segment ++ " in route " ++ quoted route ++ " contains whitespace"
  | notLast route segment =>
    quoted segment ++ " must be the last segment of route " ++ quoted route
  | secondDynamic parent existing requested =>
    parent ++ " already has dynamic child ':" ++ existing ++ "', cannot add ':" ++ requested ++ "'"
  | secondSpread parent existing requested =>
    parent ++ " already has spread child '..." ++ existing ++ "', cannot add '..." ++
      requested ++ "'"
  | aliasTaken parent aliasName =>
    "alias " ++ quoted aliasName ++ " collides with an existing child of " ++ parent
  | noAliasesHere item => item ++ " is not a static path item and cannot carry aliases"
  | noBranch item => item ++ " cannot own children or common switches"
  | commonNameTaken item name =>
    "switch name " ++ quoted name ++ " is already declared on the path of or below " ++ item
  | namelessSwitch => "a switch needs a shortname or a longname"
  | badShortName name =>
    "invalid shortname " ++ quoted name ++ ": must be exactly one character"
  | badLongName name =>
    "invalid longname " ++ quoted name ++ ": must be at least two characters"
  | unknownSwitch switch => "unrecognized switch " ++ switch
  | absentSwitch switch => "switch " ++ switch ++ " is required"
  | bothNamesSupplied short long =>
    "only one of -" ++ short ++ " or --" ++ long ++ " may be supplied"
  | missingValue switch parameter => "switch " ++ switch ++ " expects a value for " ++ parameter
  | failedCallback item index cause =>
    "callback #" ++ toString index ++ " on " ++ item ++ " failed: " ++ cause
  | noRoute commands => "no route matches " ++ quotedList commands

end Fault
end CommandRoutes
