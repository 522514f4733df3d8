import CommandRoutes.Proofs.Tree.Shape

/-!
# Elementary edits

Whatever is done to a tree comes down to four edits: a new item is attached in a
slot that has room for it, a static item gets an alias, an item changes where
no branch shows it, and a branch gets a common switch whose names are recorded
up to the root. For each edit this module says what the tree reads as
afterwards; no later proof opens the functions that make the edit.
-/
namespace CommandRoutes

namespace Segment

/-- The slot of the item that a segment makes. -/
def slot : Segment → Slot
  | static name => .static name
  | dynamic _ => .dynamic
  | spread _ => .spread
  | switch _ => .switchItem

theorem slot_eq_static {s : Segment} {name : String} :
    s.slot = .static name ↔ s = .static name := by
  cases s <;> simp [slot]

theorem slot_eq_switchItem {s : Segment} :
    s.slot = .switchItem ↔ ∃ predicates, s = .switch predicates := by
  cases s <;> simp [slot]

/-- The name of the item that a segment makes. -/
def label : Segment → String
  | static name | dynamic name | spread name => name
  | switch predicates => Predicate.renderAll predicates

def kind : Segment → ItemKind
  | static _ => .static [] {}
  | dynamic _ => .dynamic {}
  | spread _ => .spread
  | switch predicates => .switch predicates

theorem branch?_kind {s : Segment} (h : s.endsRoute = false) : s.kind.branch? = some {} := by
  cases s with
  | static name => rfl
  | dynamic name => rfl
  | spread name => cases h
  | switch predicates => cases h

/-- The item that a segment makes below `parent`. -/
def item (s : Segment) (parent : ItemId) : PathItem :=
  { name := s.label, parent := some parent, kind := s.kind }

def predicates? : Segment → Option (List Predicate)
  | switch predicates => some predicates
  | _ => none

/-- A name in the segment can be the name of an item. -/
def WellNamed : Segment → Prop
  | static name | dynamic name | spread name => CommandTree.checkName name = .ok ()
  | switch _ => True

/-- Nothing below `parent` answers to the segment or stands in its way. -/
def HasRoom (s : Segment) (t : CommandTree) (parent : ItemId) : Prop :=
  match s with
  | static name => t.occupants parent (.static name) = [] ∧ t.aliased? parent name = none
  | dynamic _ => t.occupants parent .dynamic = []
  | spread _ => t.occupants parent .spread = []
  | switch predicates =>
      ∀ id ∈ t.occupants parent .switchItem, t.name id ≠ Predicate.renderAll predicates

theorem HasRoom.free {s : Segment} {t : CommandTree} {parent : ItemId}
    (room : s.HasRoom t parent) : s.slot = .switchItem ∨ t.occupants parent s.slot = [] := by
  cases s with
  | static name => exact .inr room.1
  | dynamic name => exact .inr room
  | spread name => exact .inr room
  | switch predicates => exact .inl rfl

end Segment

namespace PathItem

def addAlias (aliasName : String) (item : PathItem) : PathItem :=
  match item.kind with
  | .static aliases b => { item with kind := .static (aliases ++ [aliasName]) b }
  | _ => item

section
variable (aliasName : String) (item : PathItem)

@[simp] theorem name_addAlias : (item.addAlias aliasName).name = item.name := by
  unfold addAlias; split <;> rfl

@[simp] theorem parent_addAlias : (item.addAlias aliasName).parent = item.parent := by
  unfold addAlias; split <;> rfl

@[simp] theorem isRoot_addAlias : (item.addAlias aliasName).kind.isRoot = item.kind.isRoot := by
  unfold addAlias; split
  · next h => rw [h]; rfl
  · rfl

@[simp] theorem slot?_addAlias : (item.addAlias aliasName).slot? = item.slot? := by
  unfold addAlias; split
  · next h => simp only [slot?, h]
  · rfl

@[simp] theorem predicates?_addAlias :
    (item.addAlias aliasName).predicates? = item.predicates? := by
  unfold addAlias; split
  · next h => simp only [predicates?, h]
  · rfl

@[simp] theorem branch?_addAlias : (item.addAlias aliasName).branch? = item.branch? := by
  unfold addAlias; split
  · next h => simp only [branch?, h, ItemKind.branch?]
  · rfl

end

theorem aliases_addAlias {item : PathItem} {name : String} (h : item.slot? = some (.static name))
    (aliasName : String) : (item.addAlias aliasName).aliases = item.aliases ++ [aliasName] := by
  rcases item with ⟨name, parent, kind, description, isPrivate, required, optional⟩
  cases kind <;> simp_all [slot?, addAlias, aliases]

end PathItem

/-- Puts a common switch into a branch, among the required or the optional ones. -/
def Branch.declare (isRequired : Bool) (switch : Switch) (b : Branch) : Branch :=
  match isRequired with
  | true => { b with commonRequired := b.commonRequired.insert switch }
  | false => { b with commonOptional := b.commonOptional.insert switch }

namespace CommandTree

def attachSegment (t : CommandTree) (parent : ItemId) (s : Segment) : Grown ItemId :=
  t.attach parent s.label s.kind s.slot.enter

def enterAlias (t : CommandTree) (parent id : ItemId) (aliasName : String) : CommandTree :=
  (t.modifyBranch parent fun b => { b with aliases := b.aliases.insert aliasName id }).modify id
    (PathItem.addAlias aliasName)

/-- Declares a common switch without asking whether its names are taken. -/
def enterCommon (t : CommandTree) (id : ItemId) (isRequired : Bool) (switch : Switch) :
    CommandTree :=
  (t.modifyBranch id (Branch.declare isRequired switch)).recordNames switch.names (t.ancestry id)

/-- The four edits, each with everything that the tree has to fulfil for it. -/
inductive Edit (t : CommandTree) : CommandTree → Prop
  | attach {parent : ItemId} {b : Branch} {s : Segment} :
      t.branch? parent = some b → s.WellNamed → s.HasRoom t parent →
      Edit t (t.attachSegment parent s).tree
  | giveAlias {parent id : ItemId} {b : Branch} {name aliasName : String} :
      t.parent? id = some parent → t.slot? id = some (.static name) →
      t.branch? parent = some b → checkName aliasName = .ok () →
      t.occupants parent (.static aliasName) = [] → t.aliased? parent aliasName = none →
      Edit t (t.enterAlias parent id aliasName)
  | annotate {id : ItemId} {f : PathItem → PathItem} :
      (∀ item, (f item).name = item.name ∧ (f item).parent = item.parent ∧
        (f item).kind = item.kind) →
      Edit t (t.modify id f)
  | common {id : ItemId} {b : Branch} {isRequired : Bool} {switch : Switch} :
      t.branch? id = some b → (∀ name ∈ switch.names, name ∉ t.takenNames id b) →
      Edit t (t.enterCommon id isRequired switch)

/-! ## After attaching an item -/

section
variable {t : CommandTree} {parent : ItemId} {b : Branch} {s : Segment}

@[simp] theorem size_attachSegment : (t.attachSegment parent s).tree.size = t.size + 1 := by
  simp [attachSegment, attach, size, modifyBranch, modify]

theorem get?_attachSegment (hb : t.branch? parent = some b) (i : ItemId) :
    (t.attachSegment parent s).tree.get? i =
      if i = t.size then some (s.item parent)
      else if i = parent then (t.get? i).map (PathItem.withBranch (s.slot.enter t.size))
      else t.get? i := by
  have hp := lt_size_of_branch? hb
  have push : (CommandTree.mk (t.items.push (s.item parent))).get? i =
      if i = t.size then some (s.item parent) else t.get? i := Array.getElem?_push
  change (CommandTree.modifyBranch ⟨t.items.push (s.item parent)⟩ parent
    (s.slot.enter t.size)).get? i = _
  rw [modifyBranch_eq, get?_modify, push]
  by_cases hi : i = t.size
  · have hne : i ≠ parent := hi ▸ Nat.ne_of_gt hp
    rw [if_neg hne, if_pos hi, if_pos hi]
  · simp [hi]

variable (hb : t.branch? parent = some b)
include hb

theorem isRoot_attachSegment (i : ItemId) :
    (t.attachSegment parent s).tree.isRoot i = t.isRoot i := by
  rw [isRoot, isRoot, get?_attachSegment hb]
  split_ifs with hi hp
  · subst hi
    rw [get?_eq_none (Nat.le_refl _)]
    cases s <;> rfl
  · simp [Option.any_map]
  · rfl

theorem parent?_attachSegment (i : ItemId) :
    (t.attachSegment parent s).tree.parent? i =
      if i = t.size then some parent else t.parent? i := by
  rw [parent?, parent?, get?_attachSegment hb]
  split_ifs <;> simp [Option.bind_map, Function.comp_def, Segment.item]

theorem slot?_attachSegment (i : ItemId) :
    (t.attachSegment parent s).tree.slot? i =
      if i = t.size then some s.slot else t.slot? i := by
  rw [slot?, slot?, get?_attachSegment hb]
  split_ifs
  · cases s <;> rfl
  · rw [Option.bind_map]
    exact congrArg _ (funext (PathItem.slot?_withBranch _))
  · rfl

theorem predicates?_attachSegment (i : ItemId) :
    (t.attachSegment parent s).tree.predicates? i =
      if i = t.size then s.predicates? else t.predicates? i := by
  rw [predicates?, predicates?, get?_attachSegment hb]
  split_ifs
  · cases s <;> rfl
  · rw [Option.bind_map]
    exact congrArg _ (funext (PathItem.predicates?_withBranch _))
  · rfl

theorem name_attachSegment (i : ItemId) :
    (t.attachSegment parent s).tree.name i = if i = t.size then s.label else t.name i := by
  rw [name, name, get?_attachSegment hb]
  split_ifs <;> simp [Function.comp_def, Segment.item]

theorem aliasesOf_attachSegment (i : ItemId) :
    (t.attachSegment parent s).tree.aliasesOf i = t.aliasesOf i := by
  rw [aliasesOf, aliasesOf, get?_attachSegment hb]
  split_ifs with hi hp
  · subst hi
    rw [get?_eq_none (Nat.le_refl _)]
    cases s <;> rfl
  · simp [Function.comp_def]
  · rfl

theorem branch?_attachSegment (i : ItemId) :
    (t.attachSegment parent s).tree.branch? i =
      if i = t.size then s.kind.branch?
      else if i = parent then some (s.slot.enter t.size b) else t.branch? i := by
  rw [branch?, get?_attachSegment hb]
  split_ifs with hi hp
  · rfl
  · subst hp
    obtain ⟨item, hitem, hbranch⟩ := Option.bind_eq_some_iff.mp hb
    simp [hitem, hbranch]
  · rfl

theorem occupants_attachSegment (room : s.HasRoom t parent) (i : ItemId) (slot : Slot) :
    (t.attachSegment parent s).tree.occupants i slot =
      if i = parent ∧ slot = s.slot then t.occupants i slot ++ [t.size]
      else t.occupants i slot := by
  have hp := lt_size_of_branch? hb
  rw [occupants, branch?_attachSegment hb]
  by_cases hi : i = t.size
  · have hne : i ≠ parent := hi ▸ Nat.ne_of_gt hp
    have hnone : t.occupants i slot = [] := by
      rw [occupants, branch?, get?_eq_none (Nat.le_of_eq hi.symm)]
      rfl
    rw [if_pos hi, hnone]
    cases s <;> simp [Segment.kind, ItemKind.branch?, Branch.occupants_empty, hne]
  · rw [if_neg hi]
    by_cases hpar : i = parent
    · subst hpar
      have hocc : t.occupants i = b.occupants := by funext; simp [occupants, hb]
      have free := room.free
      rw [hocc] at free ⊢
      simp [Branch.occupants_enter t.size free]
    · simp [hpar, occupants]

theorem mem_occupants_attachSegment (room : s.HasRoom t parent) {id i : ItemId} {slot : Slot} :
    id ∈ (t.attachSegment parent s).tree.occupants i slot ↔
      id ∈ t.occupants i slot ∨ i = parent ∧ slot = s.slot ∧ id = t.size := by
  rw [occupants_attachSegment hb room]
  split_ifs with hhere
  · rw [List.mem_append, List.mem_singleton]
    simp [hhere]
  · constructor
    · exact .inl
    · rintro (h | ⟨hi, hslot, _⟩)
      · exact h
      · exact absurd ⟨hi, hslot⟩ hhere

theorem aliased?_attachSegment (i : ItemId) (aliasName : String) :
    (t.attachSegment parent s).tree.aliased? i aliasName = t.aliased? i aliasName := by
  rw [aliased?, aliased?, branch?_attachSegment hb]
  split_ifs with hi hp
  · subst hi
    rw [branch?, get?_eq_none (Nat.le_refl _)]
    cases s <;> rfl
  · subst hp
    simp [hb]
  · rfl

end

/-! ## After entering an alias -/

section
variable {t : CommandTree} {parent id : ItemId} {aliasName : String}

@[simp] theorem size_enterAlias : (t.enterAlias parent id aliasName).size = t.size := by
  simp [enterAlias]

theorem get?_enterAlias (i : ItemId) :
    (t.enterAlias parent id aliasName).get? i =
      if i = id then ((t.modifyBranch parent fun b =>
        { b with aliases := b.aliases.insert aliasName id }).get? i).map
          (PathItem.addAlias aliasName)
      else (t.modifyBranch parent fun b =>
        { b with aliases := b.aliases.insert aliasName id }).get? i :=
  get?_modify ..

@[simp] theorem isRoot_enterAlias (i : ItemId) :
    (t.enterAlias parent id aliasName).isRoot i = t.isRoot i := by
  rw [isRoot, isRoot, get?_enterAlias, modifyBranch_eq, get?_modify]
  split_ifs <;> simp [Option.any_map, Function.comp_def]

@[simp] theorem parent?_enterAlias (i : ItemId) :
    (t.enterAlias parent id aliasName).parent? i = t.parent? i := by
  rw [parent?, parent?, get?_enterAlias, modifyBranch_eq, get?_modify]
  split_ifs <;> simp [Option.bind_map, Function.comp_def]

@[simp] theorem slot?_enterAlias (i : ItemId) :
    (t.enterAlias parent id aliasName).slot? i = t.slot? i := by
  rw [slot?, slot?, get?_enterAlias, modifyBranch_eq, get?_modify]
  split_ifs <;> simp [Option.bind_map, Function.comp_def]

@[simp] theorem predicates?_enterAlias (i : ItemId) :
    (t.enterAlias parent id aliasName).predicates? i = t.predicates? i := by
  rw [predicates?, predicates?, get?_enterAlias, modifyBranch_eq, get?_modify]
  split_ifs <;> simp [Option.bind_map, Function.comp_def]

@[simp] theorem name_enterAlias (i : ItemId) :
    (t.enterAlias parent id aliasName).name i = t.name i := by
  rw [name, name, get?_enterAlias, modifyBranch_eq, get?_modify]
  split_ifs <;> simp [Function.comp_def]

theorem branch?_enterAlias (i : ItemId) :
    (t.enterAlias parent id aliasName).branch? i =
      if i = parent then (t.branch? i).map fun b =>
        { b with aliases := b.aliases.insert aliasName id }
      else t.branch? i := by
  rw [branch?, get?_enterAlias, ← branch?_modifyBranch]
  split_ifs
  · rw [Option.bind_map]
    exact congrArg _ (funext (PathItem.branch?_addAlias aliasName))
  · rfl

@[simp] theorem occupants_enterAlias (i : ItemId) (slot : Slot) :
    (t.enterAlias parent id aliasName).occupants i slot = t.occupants i slot := by
  rw [occupants, branch?_enterAlias]
  split_ifs
  · cases h : t.branch? i <;> cases slot <;> simp [occupants, h, Branch.occupants]
  · rfl

theorem aliased?_enterAlias {b : Branch} (hb : t.branch? parent = some b) (i : ItemId)
    (other : String) :
    (t.enterAlias parent id aliasName).aliased? i other =
      if i = parent ∧ other = aliasName then some id else t.aliased? i other := by
  rw [aliased?, branch?_enterAlias]
  by_cases hi : i = parent
  · subst hi
    simp [hb, aliased?]
  · simp [hi, aliased?]

theorem aliasesOf_enterAlias {name : String} (hs : t.slot? id = some (.static name))
    (i : ItemId) :
    (t.enterAlias parent id aliasName).aliasesOf i =
      if i = id then t.aliasesOf i ++ [aliasName] else t.aliasesOf i := by
  rw [aliasesOf, get?_enterAlias, modifyBranch_eq, get?_modify]
  by_cases hi : i = id
  · subst hi
    obtain ⟨item, hitem, hslot⟩ := Option.bind_eq_some_iff.mp hs
    rw [if_pos rfl, if_pos rfl, aliasesOf, hitem]
    split_ifs
    · exact (PathItem.aliases_addAlias ((PathItem.slot?_withBranch ..).trans hslot) _).trans
        (by simp)
    · exact PathItem.aliases_addAlias hslot _
  · rw [if_neg hi, if_neg hi]
    split_ifs <;> simp [aliasesOf, Function.comp_def]

end

/-! ## After edits that keep the outline -/

/-- The tree without switches, descriptions and privacy. -/
def outline (t : CommandTree) : CommandTree := ⟨t.items.map PathItem.outline⟩

section
variable (t : CommandTree)

@[simp] theorem size_outline : t.outline.size = t.size := Array.size_map

@[simp] theorem get?_outline (i : ItemId) : t.outline.get? i = (t.get? i).map PathItem.outline :=
  Array.getElem?_map ..

@[simp] theorem isRoot_outline (i : ItemId) : t.outline.isRoot i = t.isRoot i := by
  simp [isRoot, PathItem.outline, Option.any_map]

@[simp] theorem parent?_outline (i : ItemId) : t.outline.parent? i = t.parent? i := by
  simp [parent?, PathItem.outline, Option.bind_map, Function.comp_def]

@[simp] theorem name_outline (i : ItemId) : t.outline.name i = t.name i := by
  simp [name, PathItem.outline, Function.comp_def]

@[simp] theorem spelling_outline (i : ItemId) : t.outline.spelling i = t.spelling i := by
  rw [spelling, spelling, get?_outline, Option.map_map]
  exact congrArg (Option.getD · "") (congrArg (Option.map · _)
    (funext fun item => PathItem.spelling_withBranch Branch.outline item))

@[simp] theorem slot?_outline (i : ItemId) : t.outline.slot? i = t.slot? i := by
  rw [slot?, slot?, get?_outline, Option.bind_map]
  exact congrArg _ (funext fun item => PathItem.slot?_withBranch Branch.outline item)

@[simp] theorem predicates?_outline (i : ItemId) : t.outline.predicates? i = t.predicates? i := by
  rw [predicates?, predicates?, get?_outline, Option.bind_map]
  exact congrArg _ (funext fun item => PathItem.predicates?_withBranch Branch.outline item)

@[simp] theorem aliasesOf_outline (i : ItemId) : t.outline.aliasesOf i = t.aliasesOf i := by
  rw [aliasesOf, aliasesOf, get?_outline, Option.map_map]
  exact congrArg (Option.getD · []) (congrArg (Option.map · _)
    (funext fun item => PathItem.aliases_withBranch Branch.outline item))

theorem branch?_outline (i : ItemId) : t.outline.branch? i = (t.branch? i).map Branch.outline := by
  rw [branch?, branch?, get?_outline, Option.bind_map, Option.map_bind]
  exact congrArg _ (funext fun item => PathItem.branch?_withBranch Branch.outline item)

@[simp] theorem occupants_outline (i : ItemId) (slot : Slot) :
    t.outline.occupants i slot = t.occupants i slot := by
  simp [occupants, branch?_outline, Function.comp_def]

@[simp] theorem aliased?_outline (i : ItemId) (aliasName : String) :
    t.outline.aliased? i aliasName = t.aliased? i aliasName := by
  simp [aliased?, branch?_outline, Option.bind_map, Function.comp_def, Branch.outline]

theorem outline_modify {t : CommandTree} {id : ItemId} {f : PathItem → PathItem}
    (h : ∀ item, (f item).outline = item.outline) : (t.modify id f).outline = t.outline := by
  have hi : ∀ i, (t.modify id f).outline.get? i = t.outline.get? i := fun i => by
    rw [get?_outline, get?_outline, get?_modify]
    split_ifs <;> simp [Function.comp_def, h]
  exact congrArg CommandTree.mk (Array.ext_getElem? hi)

theorem outline_modifyBranch {t : CommandTree} {id : ItemId} {f : Branch → Branch}
    (h : ∀ b, (f b).outline = b.outline) : (t.modifyBranch id f).outline = t.outline := by
  refine outline_modify fun item => ?_
  have : Branch.outline ∘ f = Branch.outline := funext h
  simp [PathItem.outline, ItemKind.mapBranch_mapBranch, this]

theorem outline_recordNames (names : List String) (ids : List ItemId) (t : CommandTree) :
    (t.recordNames names ids).outline = t.outline := by
  induction ids generalizing t with
  | nil => rfl
  | cons id ids ih => exact (ih _).trans (outline_modifyBranch fun _ => rfl)

theorem outline_enterCommon (id : ItemId) (isRequired : Bool) (switch : Switch) :
    (t.enterCommon id isRequired switch).outline = t.outline := by
  refine (outline_recordNames ..).trans (outline_modifyBranch fun b => ?_)
  cases isRequired <;> rfl

theorem outline_annotate {t : CommandTree} {id : ItemId} {f : PathItem → PathItem}
    (h : ∀ item, (f item).name = item.name ∧ (f item).parent = item.parent ∧
      (f item).kind = item.kind) : (t.modify id f).outline = t.outline := by
  refine outline_modify fun item => ?_
  obtain ⟨hname, hparent, hkind⟩ := h item
  simp [PathItem.outline, hname, hparent, hkind]

end

end CommandTree
end CommandRoutes
