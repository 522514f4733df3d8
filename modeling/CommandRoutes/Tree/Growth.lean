import CommandRoutes.Route.Reader
import CommandRoutes.Tree.Basic

/-!
# Growing a tree

A growing step answers with the tree that it leaves behind, also when it fails.
An item that is there already is used again: a static child of the same name,
the dynamic or the spread child of the same name, a switch item of the same
written predicates. A second dynamic or spread child, and a static child named
like an alias, are conflicts.
-/
namespace CommandRoutes

/-- The tree after a step, and what the step came to. -/
structure Grown (α : Type) where
  tree : CommandTree
  result : Except Fault α

namespace Grown
variable {α β : Type}

/-- Goes on with the next step unless this one failed. -/
def andThen (g : Grown α) (next : CommandTree → α → Grown β) : Grown β :=
  match g.result with
  | .ok a => next g.tree a
  | .error e => ⟨g.tree, .error e⟩

def map (f : α → β) (g : Grown α) : Grown β := ⟨g.tree, g.result.map f⟩

end Grown

namespace CommandTree

/-- A name may neither be empty nor hold a blank. -/
def checkName (name : String) : Except Fault Unit :=
  if name = "" then .error (.emptyName name)
  else if Text.hasBlank name then .error (.blankInName name name)
  else .ok ()

/-- Adds a new item under `parent` and enters its number into the parent's branch. -/
def attach (t : CommandTree) (parent : ItemId) (name : String) (kind : ItemKind)
    (enter : ItemId → Branch → Branch) : Grown ItemId :=
  let id := t.size
  let item : PathItem := { name, parent := some parent, kind }
  ⟨CommandTree.modifyBranch ⟨t.items.push item⟩ parent (enter id), .ok id⟩

def ensureStatic (t : CommandTree) (parent : ItemId) (name : String) : Grown ItemId :=
  match checkName name, t.branchOf parent with
  | .error e, _ => ⟨t, .error e⟩
  | .ok _, .error e => ⟨t, .error e⟩
  | .ok _, .ok b =>
    match b.statics.get? name with
    | some existing => ⟨t, .ok existing⟩
    | none =>
      if b.aliases.contains name then ⟨t, .error (.aliasTaken (t.routeOf parent) name)⟩
      else
        t.attach parent name (.static [] {}) fun id b =>
          { b with statics := b.statics.insert name id }

def ensureDynamic (t : CommandTree) (parent : ItemId) (name : String) : Grown ItemId :=
  match checkName name, t.branchOf parent with
  | .error e, _ => ⟨t, .error e⟩
  | .ok _, .error e => ⟨t, .error e⟩
  | .ok _, .ok b =>
    match b.dynamic with
    | some existing =>
      if t.name existing = name then ⟨t, .ok existing⟩
      else ⟨t, .error (.secondDynamic (t.routeOf parent) (t.name existing) name)⟩
    | none => t.attach parent name (.dynamic {}) fun id b => { b with dynamic := some id }

def ensureSpread (t : CommandTree) (parent : ItemId) (name : String) : Grown ItemId :=
  match checkName name, t.branchOf parent with
  | .error e, _ => ⟨t, .error e⟩
  | .ok _, .error e => ⟨t, .error e⟩
  | .ok _, .ok b =>
    match b.spread with
    | some existing =>
      if t.name existing = name then ⟨t, .ok existing⟩
      else ⟨t, .error (.secondSpread (t.routeOf parent) (t.name existing) name)⟩
    | none => t.attach parent name .spread fun id b => { b with spread := some id }

def ensureSwitchItem (t : CommandTree) (parent : ItemId) (predicates : List Predicate) :
    Grown ItemId :=
  match t.branchOf parent with
  | .error e => ⟨t, .error e⟩
  | .ok b =>
    let text := Predicate.renderAll predicates
    match b.switchItems.find? fun id => t.name id = text with
    | some existing => ⟨t, .ok existing⟩
    | none =>
      t.attach parent text (.switch predicates) fun id b =>
        { b with switchItems := b.switchItems ++ [id] }

def ensureSegment (t : CommandTree) (parent : ItemId) : Segment → Grown ItemId
  | .static name => t.ensureStatic parent name
  | .dynamic name => t.ensureDynamic parent name
  | .spread name => t.ensureSpread parent name
  | .switch predicates => t.ensureSwitchItem parent predicates

/-- Registers the segments one below the other and answers with all their items. -/
def ensureSegments (t : CommandTree) (parent : ItemId) : List Segment → Grown (List ItemId)
  | [] => ⟨t, .ok []⟩
  | s :: rest =>
    (t.ensureSegment parent s).andThen fun t id => (t.ensureSegments id rest).map (id :: ·)

/-- Registers a route and answers with the items of its segments, from the root down. -/
def ensureRoute (t : CommandTree) (route : String) : Grown (List ItemId) :=
  match Route.read route with
  | .error e => ⟨t, .error e⟩
  | .ok segments => t.ensureSegments rootId segments

/-- Registers a route and answers with its last item; the empty route is the root. -/
def ensureLeaf (t : CommandTree) (route : String) : Grown ItemId :=
  (t.ensureRoute route).map fun ids => ids.getLast?.getD rootId

/-- Lets a static item answer to one more token. -/
def giveAlias (t : CommandTree) (id : ItemId) (aliasName : String) : Grown Unit :=
  match checkName aliasName with
  | .error e => ⟨t, .error e⟩
  | .ok _ =>
    match t.get? id with
    | some { kind := .static .., parent := some parent, .. } =>
      match t.branchOf parent with
      | .error e => ⟨t, .error e⟩
      | .ok b =>
        match b.literalChild? aliasName with
        | some existing =>
          if existing = id then ⟨t, .ok ()⟩
          else ⟨t, .error (.aliasTaken (t.routeOf parent) aliasName)⟩
        | none =>
          let t := t.modifyBranch parent fun b =>
            { b with aliases := b.aliases.insert aliasName id }
          let t := t.modify id fun item =>
            match item.kind with
            | .static aliases b => { item with kind := .static (aliases ++ [aliasName]) b }
            | _ => item
          ⟨t, .ok ()⟩
    | _ => ⟨t, .error (.noAliasesHere (t.routeOf id))⟩

end CommandTree
end CommandRoutes
