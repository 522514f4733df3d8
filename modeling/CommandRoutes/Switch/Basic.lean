import CommandRoutes.Fault

/-!
# Switch definitions

A switch is known by a short name of one letter or digit (`-r`), by a long name
of at least two characters (`--region`), or by both. A switch that exists has
well-formed names, so a short name and a long name are never the same text. The
default value concerns optional switches only.
-/
namespace CommandRoutes

/-- An ASCII letter or digit. -/
def isNameStart (c : Char) : Bool := c.isAlphanum

def isNamePart (c : Char) : Bool := c.isAlphanum || c = '-' || c = '_'

def isShortName (name : String) : Bool :=
  match name.toList with
  | [c] => isNameStart c
  | _ => false

def isLongName (name : String) : Bool :=
  match name.toList with
  | c :: d :: rest => isNameStart c && (d :: rest).all isNamePart
  | _ => false

structure Switch where
  short : Option String
  long : Option String
  description : String := ""
  /-- Names of the values that the switch expects. -/
  parameters : List String := []
  /-- The values of an optional switch that is not supplied. -/
  default : Option (List String) := none
  named : short.isSome || long.isSome
  short_wellFormed : ∀ s ∈ short, isShortName s
  long_wellFormed : ∀ l ∈ long, isLongName l
  deriving DecidableEq

namespace Switch

/-- A switch with these names. That both are missing is reported first, then a bad short name,
then a bad long name. -/
def new? (short long : Option String) : Except Fault Switch :=
  if named : short.isSome || long.isSome then
    if hs : ∀ s ∈ short, isShortName s then
      if hl : ∀ l ∈ long, isLongName l then
        .ok { short, long, named, short_wellFormed := hs, long_wellFormed := hl }
      else .error (.badLongName (long.getD ""))
    else .error (.badShortName (short.getD ""))
  else .error .namelessSwitch

/-- The names, short first. -/
def names (s : Switch) : List String := s.short.toList ++ s.long.toList

/-- The switch as a user would write it, both names with a slash between them. -/
def spelling (s : Switch) : String :=
  match s.short, s.long with
  | some short, some long => "-" ++ short ++ "/" ++ "--" ++ long
  | some short, none => "-" ++ short
  | none, some long => "--" ++ long
  | none, none => "<unnamed>"

end Switch
end CommandRoutes
