import CommandRoutes.Tree.Growth

/-!
# Common switches

A common switch holds for a branch and everything below it. Its names may not
be common names of the branch, of an ancestor, or of anything below the branch.
Each branch keeps the names declared on it or below it, so that declaring a
switch looks only at the ancestry of its branch.
-/
namespace CommandRoutes.CommandTree

/-- The names that a new common switch of this branch may not use. -/
def takenNames (t : CommandTree) (id : ItemId) (branch : Branch) : List String :=
  branch.namesBelow ++
    (t.ancestry id).flatMap fun a => ((t.branch? a).map Branch.ownCommonNames).getD []

/-- Enters the names into the branch of each of the items. -/
def recordNames (t : CommandTree) (names : List String) (ids : List ItemId) : CommandTree :=
  ids.foldl (fun t id =>
    t.modifyBranch id fun b => { b with namesBelow := names.foldr List.insert b.namesBelow }) t

/-- Declares a common switch; `enter` puts it into one of the two common sets. -/
def declareCommon (t : CommandTree) (id : ItemId) (switch : Switch) (enter : Branch → Branch) :
    Grown Unit :=
  match t.branchOf id with
  | .error e => ⟨t, .error e⟩
  | .ok b =>
    match switch.names.find? (t.takenNames id b).contains with
    | some name => ⟨t, .error (.commonNameTaken (t.routeOf id) name)⟩
    | none => ⟨(t.modifyBranch id enter).recordNames switch.names (t.ancestry id), .ok ()⟩

def declareCommonRequired (t : CommandTree) (id : ItemId) (switch : Switch) : Grown Unit :=
  t.declareCommon id switch fun b => { b with commonRequired := b.commonRequired.insert switch }

def declareCommonOptional (t : CommandTree) (id : ItemId) (switch : Switch) : Grown Unit :=
  t.declareCommon id switch fun b => { b with commonOptional := b.commonOptional.insert switch }

end CommandRoutes.CommandTree
