import CommandRoutes.Tree.CommonSwitches
import Mathlib.Data.List.Basic
import Mathlib.Data.List.Nodup

/-!
# The shape of a tree

What hangs where: every item but the root stands in a slot of its parent's
branch. The readings below answer for numbers alone, also for those that the
tree never gave out, and say what a tree reads as after one of its items is
changed or a new one attached. The outline of a tree is what is left of it
without switches, descriptions and privacy; it has the same readings.
-/
namespace CommandRoutes

/-- A place for children in a branch. Only the last one holds more than one child. -/
inductive Slot
  | static (name : String)
  | dynamic
  | spread
  | switchItem
  deriving DecidableEq

/-- Puts an item into a slot of a branch. -/
def Slot.enter (slot : Slot) (id : ItemId) (b : Branch) : Branch :=
  match slot with
  | static name => { b with statics := b.statics.insert name id }
  | dynamic => { b with dynamic := some id }
  | spread => { b with spread := some id }
  | switchItem => { b with switchItems := b.switchItems ++ [id] }

namespace Branch

def occupants (b : Branch) : Slot → List ItemId
  | .static name => (b.statics.get? name).toList
  | .dynamic => b.dynamic.toList
  | .spread => b.spread.toList
  | .switchItem => b.switchItems

theorem mem_children {b : Branch} {id : ItemId} :
    id ∈ b.children ↔ ∃ slot, id ∈ b.occupants slot := by
  simp only [children, List.mem_append, NameMap.mem_values]
  constructor
  · rintro (((⟨name, h⟩ | h) | h) | h)
    · exact ⟨.static name, by simpa [occupants] using h⟩
    · exact ⟨.dynamic, h⟩
    · exact ⟨.spread, h⟩
    · exact ⟨.switchItem, h⟩
  · rintro ⟨slot, h⟩
    cases slot with
    | static name => exact .inl (.inl (.inl ⟨name, by simpa [occupants] using h⟩))
    | dynamic => exact .inl (.inl (.inr h))
    | spread => exact .inl (.inr h)
    | switchItem => exact .inr h

theorem occupants_empty (slot : Slot) : ({} : Branch).occupants slot = [] := by
  cases slot <;> rfl

/-- Only the slot entered changes. -/
theorem occupants_enter {b : Branch} {slot : Slot} (id : ItemId)
    (free : slot = .switchItem ∨ b.occupants slot = []) (other : Slot) :
    (slot.enter id b).occupants other =
      if other = slot then b.occupants other ++ [id] else b.occupants other := by
  by_cases h : other = slot
  · subst h
    cases other <;> simp_all [Slot.enter, occupants]
  · cases slot <;> cases other <;> simp_all [Slot.enter, occupants]

@[simp] theorem aliases_enter (slot : Slot) (id : ItemId) (b : Branch) :
    (slot.enter id b).aliases = b.aliases := by cases slot <;> rfl

/-- The branch without its common switches. -/
def outline (b : Branch) : Branch :=
  { b with commonRequired := .empty, commonOptional := .empty, namesBelow := [] }

@[simp] theorem occupants_outline (b : Branch) : b.outline.occupants = b.occupants := by
  funext slot
  cases slot <;> rfl

end Branch

namespace ItemKind

@[simp] theorem branch?_mapBranch (f : Branch → Branch) (kind : ItemKind) :
    (kind.mapBranch f).branch? = kind.branch?.map f := by cases kind <;> rfl

theorem mapBranch_mapBranch (f g : Branch → Branch) (kind : ItemKind) :
    (kind.mapBranch f).mapBranch g = kind.mapBranch (g ∘ f) := by cases kind <;> rfl

def isRoot : ItemKind → Bool
  | root _ => true
  | _ => false

@[simp] theorem isRoot_mapBranch (f : Branch → Branch) (kind : ItemKind) :
    (kind.mapBranch f).isRoot = kind.isRoot := by cases kind <;> rfl

end ItemKind

namespace PathItem

/-- The slot that fits an item. The root fits none. -/
def slot? (item : PathItem) : Option Slot :=
  match item.kind with
  | .root _ => none
  | .static .. => some (.static item.name)
  | .dynamic _ => some .dynamic
  | .spread => some .spread
  | .switch _ => some .switchItem

/-- The item with its branch changed. -/
def withBranch (f : Branch → Branch) (item : PathItem) : PathItem :=
  { item with kind := item.kind.mapBranch f }

section
variable (f : Branch → Branch) (item : PathItem)

@[simp] theorem name_withBranch : (item.withBranch f).name = item.name := rfl

@[simp] theorem parent_withBranch : (item.withBranch f).parent = item.parent := rfl

@[simp] theorem isRoot_withBranch : (item.withBranch f).kind.isRoot = item.kind.isRoot :=
  ItemKind.isRoot_mapBranch f item.kind

@[simp] theorem slot?_withBranch : (item.withBranch f).slot? = item.slot? := by
  rcases item with ⟨name, parent, kind, description, isPrivate, required, optional⟩
  cases kind <;> rfl

@[simp] theorem spelling_withBranch : (item.withBranch f).spelling = item.spelling := by
  rcases item with ⟨name, parent, kind, description, isPrivate, required, optional⟩
  cases kind <;> rfl

@[simp] theorem aliases_withBranch : (item.withBranch f).aliases = item.aliases := by
  rcases item with ⟨name, parent, kind, description, isPrivate, required, optional⟩
  cases kind <;> rfl

@[simp] theorem predicates?_withBranch : (item.withBranch f).predicates? = item.predicates? := by
  rcases item with ⟨name, parent, kind, description, isPrivate, required, optional⟩
  cases kind <;> rfl

@[simp] theorem branch?_withBranch : (item.withBranch f).branch? = item.branch?.map f :=
  ItemKind.branch?_mapBranch f item.kind

end

/-- The item without its switches, its description and its privacy. -/
def outline (item : PathItem) : PathItem :=
  { name := item.name, parent := item.parent, kind := item.kind.mapBranch Branch.outline }

end PathItem

namespace CommandTree

def isRoot (t : CommandTree) (id : ItemId) : Bool := (t.get? id).any (·.kind.isRoot)

def slot? (t : CommandTree) (id : ItemId) : Option Slot := (t.get? id).bind PathItem.slot?

def predicates? (t : CommandTree) (id : ItemId) : Option (List Predicate) :=
  (t.get? id).bind PathItem.predicates?

def aliasesOf (t : CommandTree) (id : ItemId) : List String :=
  ((t.get? id).map PathItem.aliases).getD []

/-- The children that an item has in a slot. -/
def occupants (t : CommandTree) (id : ItemId) (slot : Slot) : List ItemId :=
  ((t.branch? id).map (·.occupants slot)).getD []

/-- The child that an alias among the children of an item stands for. -/
def aliased? (t : CommandTree) (id : ItemId) (aliasName : String) : Option ItemId :=
  (t.branch? id).bind (·.aliases.get? aliasName)

theorem lt_size_iff {t : CommandTree} {id : ItemId} :
    id < t.size ↔ ∃ item, t.get? id = some item :=
  ⟨fun h => ⟨t.items[id], Array.getElem?_eq_getElem h⟩,
    fun ⟨_, h⟩ => (Array.getElem?_eq_some_iff.mp h).1⟩

theorem get?_eq_none {t : CommandTree} {id : ItemId} (h : t.size ≤ id) : t.get? id = none :=
  Array.getElem?_eq_none h

theorem lt_size_of_parent? {t : CommandTree} {id p : ItemId} (h : t.parent? id = some p) :
    id < t.size := by
  obtain ⟨item, hi, _⟩ := Option.bind_eq_some_iff.mp h
  exact lt_size_iff.mpr ⟨item, hi⟩

theorem lt_size_of_branch? {t : CommandTree} {id : ItemId} {b : Branch}
    (h : t.branch? id = some b) : id < t.size := by
  obtain ⟨item, hi, _⟩ := Option.bind_eq_some_iff.mp h
  exact lt_size_iff.mpr ⟨item, hi⟩

theorem lt_size_of_slot? {t : CommandTree} {id : ItemId} {slot : Slot}
    (h : t.slot? id = some slot) : id < t.size := by
  obtain ⟨item, hi, _⟩ := Option.bind_eq_some_iff.mp h
  exact lt_size_iff.mpr ⟨item, hi⟩

/-- Spread and switch items are those without a branch. -/
theorem branch?_eq_none_iff {t : CommandTree} {id : ItemId} (h : id < t.size) :
    t.branch? id = none ↔ t.slot? id = some .spread ∨ t.slot? id = some .switchItem := by
  obtain ⟨item, hitem⟩ := lt_size_iff.mp h
  rw [branch?, slot?, hitem]
  rcases item with ⟨name, parent, kind, description, isPrivate, required, optional⟩
  cases kind <;> simp [PathItem.branch?, PathItem.slot?, ItemKind.branch?]

theorem exists_branch_iff {t : CommandTree} {id : ItemId} :
    (∃ b, t.branch? id = some b) ↔
      id < t.size ∧ t.slot? id ≠ some .spread ∧ t.slot? id ≠ some .switchItem := by
  constructor
  · rintro ⟨b, hb⟩
    have hlt := lt_size_of_branch? hb
    have hleaf := branch?_eq_none_iff hlt
    rw [hb] at hleaf
    simpa [hlt] using hleaf
  · rintro ⟨hlt, hslot⟩
    apply Option.ne_none_iff_exists'.mp
    rw [Ne, branch?_eq_none_iff hlt, not_or]
    exact hslot

theorem exists_branch_of_mem_occupants {t : CommandTree} {id q : ItemId} {slot : Slot}
    (h : id ∈ t.occupants q slot) : ∃ b, t.branch? q = some b ∧ id ∈ b.occupants slot := by
  cases hb : t.branch? q with
  | none => simp [occupants, hb] at h
  | some b => exact ⟨b, rfl, by simpa [occupants, hb] using h⟩

theorem mem_children {t : CommandTree} {id q : ItemId} :
    id ∈ t.children q ↔ ∃ slot, id ∈ t.occupants q slot := by
  cases hb : t.branch? q with
  | none => simp [children, occupants, hb]
  | some b => simp [children, occupants, hb, Branch.mem_children]

/-! ## After a change of one item -/

section
variable (t : CommandTree) (id : ItemId)

@[simp] theorem size_modify (f : PathItem → PathItem) : (t.modify id f).size = t.size :=
  Array.size_modify

theorem get?_modify (f : PathItem → PathItem) (i : ItemId) :
    (t.modify id f).get? i = if i = id then (t.get? i).map f else t.get? i := by
  simp only [get?, modify, Array.getElem?_modify, eq_comm (a := id)]

variable (f : Branch → Branch)

theorem modifyBranch_eq : t.modifyBranch id f = t.modify id (PathItem.withBranch f) := rfl

@[simp] theorem size_modifyBranch : (t.modifyBranch id f).size = t.size := size_modify t id _

theorem branch?_modifyBranch (i : ItemId) :
    (t.modifyBranch id f).branch? i = if i = id then (t.branch? i).map f else t.branch? i := by
  rw [branch?, modifyBranch_eq, get?_modify]
  split
  · cases h : t.get? i <;> simp [branch?, h]
  · rfl

end

end CommandTree
end CommandRoutes
