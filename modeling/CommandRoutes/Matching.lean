import CommandRoutes.Bindings
import CommandRoutes.Invocation
import CommandRoutes.Tree.Basic

/-!
# Matching

Command tokens lead from the root to an item. At each branch a static child that
the token names is taken before the dynamic child, and the dynamic child before
the spread child, which consumes all remaining tokens. No choice is ever taken
back. Where the bindings are of no use the same way is gone without making any.
The supplied switches then select the first switch item below the item reached
all of whose predicates hold of the short and long switches together.
-/
namespace CommandRoutes

namespace CommandTree

/-- Walks down from `current`; answers with the item reached. -/
def destinationFrom? (t : CommandTree) (current : ItemId) : List String → Option ItemId
  | [] => some current
  | token :: rest =>
    match t.branch? current with
    | none => none
    | some b =>
      match b.literalChild? token with
      | some next => t.destinationFrom? next rest
      | none =>
        match b.dynamic with
        | some next => t.destinationFrom? next rest
        | none => b.spread

/-- The item that the commands lead to. -/
def destination? (t : CommandTree) (commands : List String) : Option ItemId :=
  t.destinationFrom? rootId commands

/-- Walks down from `current`; answers with the item reached and the bindings made. -/
def followFrom (t : CommandTree) (current : ItemId) : List String → Option (ItemId × Bindings)
  | [] => some (current, [])
  | token :: rest =>
    match t.branch? current with
    | none => none
    | some b =>
      match b.literalChild? token with
      | some next => t.followFrom next rest
      | none =>
        match b.dynamic with
        | some next =>
          (t.followFrom next rest).map fun r => (r.1, (t.name next, .one token) :: r.2)
        | none =>
          match b.spread with
          | some next => some (next, [(t.name next, .many (token :: rest))])
          | none => none

def follow (t : CommandTree) (commands : List String) : Option (ItemId × Bindings) :=
  t.followFrom rootId commands

/-- The bindings of the commands, unless they lead nowhere. -/
def bindTokens (t : CommandTree) (commands : List String) : Except Fault Bindings :=
  match t.follow commands with
  | some (_, bindings) => .ok bindings
  | none => .error (.noRoute commands)

/-- Whether every predicate of a switch item holds of the supplied switches. -/
def holds (supplied : Supplied) (predicates : List Predicate) : Bool :=
  predicates.all fun p =>
    match supplied.get? p.id with
    | some values => p.isMetBy values
    | none => false

/-- The first switch item of a branch that the supplied switches select, if there are any. -/
def selectItem? (t : CommandTree) (id : ItemId) (short long : Supplied) : Option ItemId :=
  if short.isEmpty ∧ long.isEmpty then none
  else
    match t.branch? id with
    | none => none
    | some b =>
      let supplied := Supplied.union short long
      b.switchItems.find? fun item =>
        match (t.get? item).bind PathItem.predicates? with
        | some predicates => holds supplied predicates
        | none => false

end CommandTree

/-- Where an input leads. -/
structure Resolution where
  item : ItemId
  switchItem : Option ItemId
  bindings : Bindings
  deriving DecidableEq

/-- The item whose switches are verified and whose callbacks run. -/
def Resolution.target (r : Resolution) : ItemId := r.switchItem.getD r.item

def CommandTree.locate (t : CommandTree) (input : Invocation) : Option Resolution :=
  (t.follow input.commands).map fun (item, bindings) =>
    { item, switchItem := t.selectItem? item input.short input.long, bindings }

end CommandRoutes
