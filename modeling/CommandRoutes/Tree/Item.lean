import CommandRoutes.Predicate.Basic
import CommandRoutes.Switch.Set

/-!
# Path items

The items of a command tree are numbered in the order of their creation, and
the root has number zero. Root, static and dynamic items have a branch: they may
own children and common switches. Spread and switch items never do.
-/
namespace CommandRoutes

abbrev ItemId := Nat

/-- What an item that may own children holds. Static children stand under their names, aliases
under theirs. -/
structure Branch where
  statics : NameMap ItemId := .empty
  aliases : NameMap ItemId := .empty
  dynamic : Option ItemId := none
  spread : Option ItemId := none
  /-- In the order of their declaration. -/
  switchItems : List ItemId := []
  commonRequired : Switches := .empty
  commonOptional : Switches := .empty
  /-- The names of all common switches declared on this item or below it. -/
  namesBelow : List String := []
  deriving DecidableEq

namespace Branch

/-- The static child that a token names, by name before alias. -/
def literalChild? (b : Branch) (token : String) : Option ItemId :=
  (b.statics.get? token).or (b.aliases.get? token)

/-- All children: static ones by name, the dynamic one, the spread one, the switch items. -/
def children (b : Branch) : List ItemId :=
  b.statics.values ++ b.dynamic.toList ++ b.spread.toList ++ b.switchItems

/-- The names of the common switches declared on this very item. -/
def ownCommonNames (b : Branch) : List String :=
  (b.commonRequired.toList ++ b.commonOptional.toList).flatMap Switch.names

end Branch

inductive ItemKind
  /-- The item that every route starts from. -/
  | root (branch : Branch)
  /-- Consumes a token that is its name or one of its aliases. -/
  | static (aliases : List String) (branch : Branch)
  /-- Consumes any one token. -/
  | dynamic (branch : Branch)
  /-- Consumes all remaining tokens. -/
  | spread
  /-- Chosen by the supplied switches. -/
  | switch (predicates : List Predicate)
  deriving DecidableEq

namespace ItemKind

def branch? : ItemKind → Option Branch
  | root b | static _ b | dynamic b => some b
  | spread | switch _ => none

def mapBranch (f : Branch → Branch) : ItemKind → ItemKind
  | root b => root (f b)
  | static aliases b => static aliases (f b)
  | dynamic b => dynamic (f b)
  | spread => spread
  | switch predicates => switch predicates

def isStatic : ItemKind → Bool
  | static .. => true
  | _ => false

end ItemKind

structure PathItem where
  /-- The literal of a static item, the parameter of a dynamic or spread item, the written
  predicates of a switch item, nothing for the root. -/
  name : String
  parent : Option ItemId
  kind : ItemKind
  description : String := ""
  isPrivate : Bool := false
  /-- Switches of this item alone. -/
  required : Switches := .empty
  optional : Switches := .empty
  deriving DecidableEq

namespace PathItem

def branch? (item : PathItem) : Option Branch := item.kind.branch?

def aliases (item : PathItem) : List String :=
  match item.kind with
  | .static aliases _ => aliases
  | _ => []

def predicates? (item : PathItem) : Option (List Predicate) :=
  match item.kind with
  | .switch predicates => some predicates
  | _ => none

/-- The item as a route writes it. -/
def spelling (item : PathItem) : String :=
  match item.kind with
  | .root _ => "/"
  | .static .. => item.name
  | .dynamic _ => ":" ++ item.name
  | .spread => "..." ++ item.name
  | .switch predicates => Predicate.renderAll predicates

end PathItem
end CommandRoutes
