import CommandRoutes.Dispatcher

/-!
# Listings

A listing has a line for each path item, indented by its depth: the item as a
route writes it, its aliases, its description, whether it is private, and the
names of its callbacks. Lines below it, one step deeper, list its switches.
Private items may be left out; what is below them is still listed.
-/
namespace CommandRoutes

/-- The blanks in front of a line at some depth. -/
def indentation (depth : Nat) : String := String.join (List.replicate depth "  ")

/-- A switch with the values that it expects. -/
def Switch.usage (s : Switch) : String :=
  s.spelling ++ String.join (s.parameters.map fun p => " <" ++ p ++ ">")

def Switches.usage (set : Switches) : String := ", ".intercalate (set.toList.map Switch.usage)

namespace Dispatcher
variable {m : Type → Type}

/-- The line of the item itself, without indentation. -/
def itemLine (d : Dispatcher m) (id : ItemId) (item : PathItem) : String :=
  item.spelling ++
  (if item.aliases.isEmpty then "" else " (" ++ ", ".intercalate item.aliases ++ ")") ++
  (if item.description = "" then "" else " - " ++ item.description) ++
  (if item.isPrivate then " [private]" else "") ++
  (if (d.callbacksOf id).isEmpty then ""
    else " -> " ++ ", ".intercalate ((d.callbacksOf id).map fun c => c.name.getD "<anonymous>"))

end Dispatcher

/-- The switch sets of an item with their headings. -/
def PathItem.sections (item : PathItem) : List (String × Switches) :=
  [("required", item.required), ("optional", item.optional)] ++
    match item.branch? with
    | some b => [("common required", b.commonRequired), ("common optional", b.commonOptional)]
    | none => []

def PathItem.switchLines (item : PathItem) : List String :=
  (item.sections.filter fun s => !s.2.isEmpty).map fun s => s.1 ++ ": " ++ s.2.usage

/-- The items that a listing shows, with their depths. -/
def CommandTree.listed (t : CommandTree) (all : Bool) : List (Nat × ItemId) :=
  t.preorder.filter fun e => all || !((t.get? e.2).any PathItem.isPrivate)

namespace Dispatcher
variable {m : Type → Type}

/-- The lines of one item, each ended. -/
def itemLines (d : Dispatcher m) (depth : Nat) (id : ItemId) : List String :=
  match d.tree.get? id with
  | none => []
  | some item =>
    (indentation depth ++ d.itemLine id item ++ "\n") ::
      item.switchLines.map fun line => indentation (depth + 1) ++ line ++ "\n"

def listing (d : Dispatcher m) (all : Bool) : String :=
  String.join ((d.tree.listed all).flatMap fun e => d.itemLines e.1 e.2)

end Dispatcher
end CommandRoutes
