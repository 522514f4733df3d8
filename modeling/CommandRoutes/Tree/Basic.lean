import CommandRoutes.Fault
import CommandRoutes.Tree.Item

/-!
# Command trees

A tree is a table of path items. An item's parent is older than the item, and
its children are younger; going up and going down both rely on it and both look
at no link that breaks it. For a number that the tree never gave out there is no
item, no branch and no parent.
-/
namespace CommandRoutes

structure CommandTree where
  items : Array PathItem
  deriving DecidableEq

namespace CommandTree

/-- The number of the root. -/
def rootId : ItemId := 0

/-- The tree of the root alone. -/
def new : CommandTree := ⟨#[{ name := "", parent := none, kind := .root {} }]⟩

def size (t : CommandTree) : Nat := t.items.size

def get? (t : CommandTree) (id : ItemId) : Option PathItem := t.items[id]?

def branch? (t : CommandTree) (id : ItemId) : Option Branch := (t.get? id).bind PathItem.branch?

def parent? (t : CommandTree) (id : ItemId) : Option ItemId := (t.get? id).bind PathItem.parent

def name (t : CommandTree) (id : ItemId) : String := ((t.get? id).map PathItem.name).getD ""

def spelling (t : CommandTree) (id : ItemId) : String :=
  ((t.get? id).map PathItem.spelling).getD ""

/-- The item and its ancestors, up to the root. -/
def ancestry (t : CommandTree) (id : ItemId) : List ItemId :=
  id ::
    match t.parent? id with
    | some p => if p < id then t.ancestry p else []
    | none => []
termination_by id

/-- The items from the root down to this one. -/
def trail (t : CommandTree) (id : ItemId) : List ItemId := (t.ancestry id).reverse

/-- The route of an item, such as `/deploy/:env/[force]`. -/
def routeOf (t : CommandTree) (id : ItemId) : String :=
  "/" ++ "/".intercalate (((t.trail id).drop 1).map t.spelling)

def branchOf (t : CommandTree) (id : ItemId) : Except Fault Branch :=
  match t.branch? id with
  | some b => .ok b
  | none => .error (.noBranch (t.routeOf id))

def children (t : CommandTree) (id : ItemId) : List ItemId :=
  match t.branch? id with
  | some b => b.children
  | none => []

/-- An item at the given depth, followed by everything below it. -/
def preorderFrom (t : CommandTree) (depth : Nat) (id : ItemId) : List (Nat × ItemId) :=
  (depth, id) :: (t.children id).flatMap fun child =>
    if h : id < child ∧ child < t.size then t.preorderFrom (depth + 1) child else []
termination_by t.size - id
decreasing_by exact Nat.sub_lt_sub_left (Nat.lt_trans h.1 h.2) h.1

/-- All items with their depths, each before what is below it. -/
def preorder (t : CommandTree) : List (Nat × ItemId) := t.preorderFrom 0 rootId

/-! ## Changing one item -/

def modify (t : CommandTree) (id : ItemId) (f : PathItem → PathItem) : CommandTree :=
  ⟨t.items.modify id f⟩

def modifyBranch (t : CommandTree) (id : ItemId) (f : Branch → Branch) : CommandTree :=
  t.modify id fun item => { item with kind := item.kind.mapBranch f }

def setDescription (t : CommandTree) (id : ItemId) (text : String) : CommandTree :=
  t.modify id fun item => { item with description := text }

def setPrivate (t : CommandTree) (id : ItemId) (isPrivate : Bool) : CommandTree :=
  t.modify id fun item => { item with isPrivate }

/-- A required switch of this item alone; its names may be in use elsewhere. -/
def declareRequired (t : CommandTree) (id : ItemId) (switch : Switch) : CommandTree :=
  t.modify id fun item => { item with required := item.required.insert switch }

/-- An optional switch of this item alone. -/
def declareOptional (t : CommandTree) (id : ItemId) (switch : Switch) : CommandTree :=
  t.modify id fun item => { item with optional := item.optional.insert switch }

end CommandTree
end CommandRoutes
