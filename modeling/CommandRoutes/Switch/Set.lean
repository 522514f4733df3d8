import CommandRoutes.NameMap
import CommandRoutes.Switch.Basic

/-!
# Ordered sets of switches

Switches stay in the order of their declaration. Looking up a name finds the
switch that declared it last: a later switch shadows an earlier one under the
names that they share.
-/
namespace CommandRoutes

structure Switches where
  toList : List Switch := []
  deriving DecidableEq

namespace Switches

def empty : Switches := {}

def insert (set : Switches) (switch : Switch) : Switches := ⟨set.toList ++ [switch]⟩

def size (set : Switches) : Nat := set.toList.length

def isEmpty (set : Switches) : Bool := set.toList.isEmpty

def withShort? (set : Switches) (name : String) : Option Switch :=
  set.toList.reverse.find? fun s => s.short == some name

def withLong? (set : Switches) (name : String) : Option Switch :=
  set.toList.reverse.find? fun s => s.long == some name

def knows (set : Switches) (name : String) : Bool :=
  (set.withShort? name).isSome || (set.withLong? name).isSome

/-- Every short name and every long name, each once, in name order. -/
def names (set : Switches) : List String :=
  (NameMap.ofList ((set.toList.flatMap Switch.names).map fun n => (n, ()))).keys

end Switches

/-- Switches supplied at run time under one kind of name; an empty list of values means that the
switch is merely present. -/
abbrev Supplied := NameMap (List String)

namespace Supplied

/-- Adds `values` after the values that `name` has already. -/
def append (m : Supplied) (name : String) (values : List String) : Supplied :=
  m.alter name fun old => old.getD [] ++ values

theorem get?_append (m : Supplied) (name : String) (values : List String) (k : String) :
    (append m name values).get? k =
      if k = name then some ((m.get? name).getD [] ++ values) else m.get? k :=
  NameMap.get?_alter m name _ k

/-- The two maps as one; a name in both has the values of the short map first. -/
def union (short long : Supplied) : Supplied :=
  (short.entries ++ long.entries).foldl (fun m e => Supplied.append m e.1 e.2) .empty

end Supplied
end CommandRoutes
