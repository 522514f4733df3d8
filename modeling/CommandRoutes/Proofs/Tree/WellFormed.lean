import CommandRoutes.Proofs.Tree.Ancestry
import CommandRoutes.Proofs.Tree.Growing

/-!
# Well-formed trees

Every reachable tree is well-formed: the root is its first item, every other
item hangs below an older one in the one slot that fits it, and the two tables
of aliases, in branches and in items, agree. In a well-formed tree going up ends
at the root and going down misses no child, so that nothing which walks the
tree ever asks for an item that is not there.
-/
namespace CommandRoutes.CommandTree

structure WellFormed (t : CommandTree) : Prop where
  /-- The first item is the root, and the only one. -/
  isRoot_iff : ∀ id, t.isRoot id = true ↔ id = rootId
  parent?_eq_none_iff : ∀ {id}, id < t.size → (t.parent? id = none ↔ id = rootId)
  /-- An item stands where it fits in the branch of an older item. -/
  placed : ∀ {id p}, t.parent? id = some p →
    p < id ∧ ∃ slot, t.slot? id = some slot ∧ id ∈ t.occupants p slot
  /-- A slot holds items that fit it and know their parent. -/
  occupant : ∀ {id p slot}, id ∈ t.occupants p slot →
    t.parent? id = some p ∧ t.slot? id = some slot
  /-- The aliases of a branch are those of its static children. -/
  aliased?_iff : ∀ {p aliasName id}, t.aliased? p aliasName = some id ↔
    t.parent? id = some p ∧ (∃ name, t.slot? id = some (.static name)) ∧
      aliasName ∈ t.aliasesOf id
  /-- No alias in a branch is the name of a static child. -/
  alias_free : ∀ {p aliasName id}, t.aliased? p aliasName = some id →
    t.occupants p (.static aliasName) = []
  /-- Switch items of one branch are written differently. -/
  switchItems_nodup : ∀ p, ((t.occupants p .switchItem).map t.name).Nodup
  /-- A switch item is named as its predicates are written. -/
  name_eq_renderAll : ∀ {id predicates}, t.predicates? id = some predicates →
    t.name id = Predicate.renderAll predicates

namespace WellFormed
variable {t : CommandTree}

theorem rootId_lt_size (w : t.WellFormed) : rootId < t.size := by
  have h := (w.isRoot_iff rootId).mpr rfl
  cases hi : t.get? rootId with
  | none => simp [isRoot, hi] at h
  | some item => exact lt_size_iff.mpr ⟨item, hi⟩

theorem occupant_lt_size (w : t.WellFormed) {id p : ItemId} {slot : Slot}
    (h : id ∈ t.occupants p slot) : id < t.size :=
  lt_size_of_parent? (w.occupant h).1

theorem parent_lt_size (w : t.WellFormed) {id p : ItemId} (h : t.parent? id = some p) :
    p < t.size :=
  Nat.lt_trans (w.placed h).1 (lt_size_of_parent? h)

theorem exists_branch_of_parent? (w : t.WellFormed) {id p : ItemId} (h : t.parent? id = some p) :
    ∃ b, t.branch? p = some b := by
  obtain ⟨_, slot, _, hmem⟩ := w.placed h
  obtain ⟨b, hb, _⟩ := exists_branch_of_mem_occupants hmem
  exact ⟨b, hb⟩

/-- All ancestors of a branch are branches. -/
theorem exists_branch_of_mem_ancestry (w : t.WellFormed) {a id : ItemId} {b : Branch}
    (hb : t.branch? id = some b) (ha : a ∈ t.ancestry id) : ∃ b, t.branch? a = some b := by
  induction id using Nat.strong_induction_on generalizing b with
  | _ id ih =>
      rcases mem_ancestry.mp ha with rfl | ⟨p, hp, hlt, ha⟩
      · exact ⟨b, hb⟩
      · obtain ⟨b', hb'⟩ := w.exists_branch_of_parent? hp
        exact ih p hlt hb' ha

theorem occupants_nodup (w : t.WellFormed) (p : ItemId) (slot : Slot) :
    (t.occupants p slot).Nodup := by
  cases hb : t.branch? p with
  | none => simp [occupants, hb]
  | some b =>
      cases slot with
      | switchItem => exact .of_map _ (w.switchItems_nodup p)
      | static name => cases h : b.statics.get? name <;> simp [occupants, hb, Branch.occupants, h]
      | dynamic => cases h : b.dynamic <;> simp [occupants, hb, Branch.occupants, h]
      | spread => cases h : b.spread <;> simp [occupants, hb, Branch.occupants, h]

/-- Below the parent and in the slot that fits, an item is found once; elsewhere never. -/
theorem count_occupants (w : t.WellFormed) {id p : ItemId} (h : t.parent? id = some p)
    (q : ItemId) (slot : Slot) :
    (t.occupants q slot).count id = if q = p ∧ t.slot? id = some slot then 1 else 0 := by
  obtain ⟨_, own, hown, hmem⟩ := w.placed h
  split_ifs with hq
  · obtain ⟨rfl, hslot⟩ := hq
    cases hown.symm.trans hslot
    exact List.count_eq_one_of_mem (w.occupants_nodup q slot) hmem
  · refine List.count_eq_zero.mpr fun hin => hq ?_
    obtain ⟨hparent, hslot⟩ := w.occupant hin
    exact ⟨Option.some.inj (hparent.symm.trans h), hslot⟩

/-! ## Edits keep trees well-formed -/

theorem new : CommandTree.new.WellFormed := by
  have hget : ∀ id, CommandTree.new.get? id =
      if id = rootId then some { name := "", parent := none, kind := .root {} } else none := by
    intro id
    cases id <;> rfl
  have hocc : ∀ id slot, CommandTree.new.occupants id slot = [] := by
    intro id slot
    simp only [occupants, branch?, hget]
    split_ifs
    · exact Branch.occupants_empty slot
    · rfl
  have halias : ∀ id aliasName, CommandTree.new.aliased? id aliasName = none := by
    intro id aliasName
    simp only [aliased?, branch?, hget]
    split_ifs <;> rfl
  have hparent : ∀ id, CommandTree.new.parent? id = none := by
    intro id
    simp only [parent?, hget]
    split_ifs <;> rfl
  constructor
  · intro id
    rw [isRoot, hget]
    split_ifs with h <;> simp [h, ItemKind.isRoot]
  · intro id hid
    have : id = rootId := Nat.lt_one_iff.mp hid
    simp [hparent, this]
  · intro id p h
    simp [hparent] at h
  · intro id p slot h
    simp [hocc] at h
  · intro p aliasName id
    simp [halias, hparent]
  · intro p aliasName id h
    simp [halias] at h
  · intro p
    simp [hocc]
  · intro id predicates h
    simp only [predicates?, hget] at h
    split_ifs at h <;> cases h

theorem of_outline_eq (w : t.WellFormed) {t' : CommandTree} (h : t'.outline = t.outline) :
    t'.WellFormed := by
  have hsize : t'.size = t.size := by rw [← size_outline t', h, size_outline]
  have hroot : t'.isRoot = t.isRoot := by funext i; rw [← isRoot_outline t', h, isRoot_outline]
  have hparent : t'.parent? = t.parent? := by
    funext i
    rw [← parent?_outline t', h, parent?_outline]
  have hname : t'.name = t.name := by funext i; rw [← name_outline t', h, name_outline]
  have hslot : t'.slot? = t.slot? := by funext i; rw [← slot?_outline t', h, slot?_outline]
  have hpred : t'.predicates? = t.predicates? := by
    funext i; rw [← predicates?_outline t', h, predicates?_outline]
  have haliases : t'.aliasesOf = t.aliasesOf := by
    funext i; rw [← aliasesOf_outline t', h, aliasesOf_outline]
  have hocc : t'.occupants = t.occupants := by
    funext i slot; rw [← occupants_outline t', h, occupants_outline]
  have haliased : t'.aliased? = t.aliased? := by
    funext i a; rw [← aliased?_outline t', h, aliased?_outline]
  constructor <;> simp only [hsize, hroot, hparent, hname, hslot, hpred, haliases, hocc, haliased]
  · exact w.isRoot_iff
  · exact w.parent?_eq_none_iff
  · exact w.placed
  · exact w.occupant
  · exact w.aliased?_iff
  · exact w.alias_free
  · exact w.switchItems_nodup
  · exact w.name_eq_renderAll

section
variable {parent : ItemId} {b : Branch} {s : Segment} (w : t.WellFormed)
  (hb : t.branch? parent = some b) (room : s.HasRoom t parent)
include w hb room

theorem switchItems_nodup_attach (p : ItemId) :
    (((t.attachSegment parent s).tree.occupants p .switchItem).map
      (t.attachSegment parent s).tree.name).Nodup := by
  have hnames : (t.occupants p .switchItem).map (t.attachSegment parent s).tree.name =
      (t.occupants p .switchItem).map t.name := by
    refine List.map_congr_left fun i hi => ?_
    rw [name_attachSegment hb, if_neg (Nat.ne_of_lt (w.occupant_lt_size hi))]
  rw [occupants_attachSegment hb room]
  split_ifs with hhere
  · obtain ⟨rfl, hslot⟩ := hhere
    obtain ⟨predicates, rfl⟩ := Segment.slot_eq_switchItem.mp hslot.symm
    have hnew : (t.attachSegment p (.switch predicates)).tree.name t.size =
        Predicate.renderAll predicates := by
      rw [name_attachSegment hb, if_pos rfl]
      rfl
    rw [List.map_append, hnames, List.map_singleton, hnew, List.nodup_append']
    refine ⟨w.switchItems_nodup p, List.nodup_singleton _, ?_⟩
    rw [List.disjoint_singleton]
    intro hmem
    obtain ⟨i, hi, hsame⟩ := List.mem_map.mp hmem
    exact room i hi hsame
  · rw [hnames]
    exact w.switchItems_nodup p

theorem attach : (t.attachSegment parent s).tree.WellFormed := by
  constructor
  · intro id
    rw [isRoot_attachSegment hb]
    exact w.isRoot_iff id
  · intro id hid
    rw [size_attachSegment] at hid
    rw [parent?_attachSegment hb]
    split_ifs with hnew
    · have hroot : id ≠ rootId := hnew ▸ Nat.ne_of_gt w.rootId_lt_size
      simp [hroot]
    · exact w.parent?_eq_none_iff (Nat.lt_of_le_of_ne (Nat.le_of_lt_succ hid) hnew)
  · intro id p hp
    rw [parent?_attachSegment hb] at hp
    rw [slot?_attachSegment hb]
    split_ifs at hp ⊢ with hnew
    · cases hp
      refine ⟨hnew ▸ lt_size_of_branch? hb, s.slot, rfl, ?_⟩
      exact (mem_occupants_attachSegment hb room).mpr (.inr ⟨rfl, rfl, hnew⟩)
    · obtain ⟨hlt, slot, hslot, hmem⟩ := w.placed hp
      exact ⟨hlt, slot, hslot, (mem_occupants_attachSegment hb room).mpr (.inl hmem)⟩
  · intro id p slot hmem
    rw [parent?_attachSegment hb, slot?_attachSegment hb]
    rcases (mem_occupants_attachSegment hb room).mp hmem with h | ⟨rfl, rfl, rfl⟩
    · have hold : id ≠ t.size := Nat.ne_of_lt (w.occupant_lt_size h)
      simpa [hold] using w.occupant h
    · simp
  · intro p aliasName id
    rw [aliased?_attachSegment hb, parent?_attachSegment hb, slot?_attachSegment hb,
      aliasesOf_attachSegment hb, w.aliased?_iff]
    by_cases hnew : id = t.size
    · have hno : t.aliasesOf id = [] := by
        rw [aliasesOf, get?_eq_none (Nat.le_of_eq hnew.symm)]
        rfl
      simp [hno]
    · simp [hnew]
  · intro p aliasName id halias
    rw [aliased?_attachSegment hb] at halias
    rw [occupants_attachSegment hb room, w.alias_free halias]
    split_ifs with hhere
    · -- a static segment of this name would have no room beside the alias
      obtain ⟨rfl, hslot⟩ := hhere
      obtain rfl := Segment.slot_eq_static.mp hslot.symm
      rw [room.2] at halias
      cases halias
    · rfl
  · exact w.switchItems_nodup_attach hb room
  · intro id predicates h
    rw [predicates?_attachSegment hb] at h
    rw [name_attachSegment hb]
    split_ifs at h ⊢ with hnew
    · cases s with
      | switch _ =>
          cases h
          rfl
      | static name => cases h
      | dynamic name => cases h
      | spread name => cases h
    · exact w.name_eq_renderAll h

end

theorem enterAlias (w : t.WellFormed) {parent id : ItemId} {b : Branch} {name aliasName : String}
    (hparent : t.parent? id = some parent) (hslot : t.slot? id = some (.static name))
    (hb : t.branch? parent = some b) (free : t.occupants parent (.static aliasName) = [])
    (unused : t.aliased? parent aliasName = none) :
    (t.enterAlias parent id aliasName).WellFormed := by
  have hname : (t.enterAlias parent id aliasName).name = t.name := funext name_enterAlias
  constructor <;> simp only [isRoot_enterAlias, size_enterAlias, parent?_enterAlias,
    slot?_enterAlias, occupants_enterAlias, predicates?_enterAlias, hname]
  · exact w.isRoot_iff
  · exact w.parent?_eq_none_iff
  · exact w.placed
  · exact w.occupant
  · intro p other i
    rw [aliased?_enterAlias hb, aliasesOf_enterAlias hslot]
    by_cases hi : i = id
    · subst hi
      rw [if_pos rfl, List.mem_append, List.mem_singleton, hparent, Option.some_inj]
      by_cases hhere : p = parent ∧ other = aliasName
      · obtain ⟨rfl, rfl⟩ := hhere
        simp [hslot]
      · rw [if_neg hhere, w.aliased?_iff, hparent, Option.some_inj]
        constructor
        · rintro ⟨hp, hs, ha⟩
          exact ⟨hp, hs, .inl ha⟩
        · rintro ⟨hp, hs, ha | ha⟩
          · exact ⟨hp, hs, ha⟩
          · exact absurd ⟨hp.symm, ha⟩ hhere
    · rw [if_neg hi, ← w.aliased?_iff]
      split_ifs with hhere
      · obtain ⟨rfl, rfl⟩ := hhere
        simp [unused, Ne.symm hi]
      · rfl
  · intro p other i halias
    rw [aliased?_enterAlias hb] at halias
    split_ifs at halias with hhere
    · obtain ⟨rfl, rfl⟩ := hhere
      exact free
    · exact w.alias_free halias
  · exact w.switchItems_nodup
  · exact w.name_eq_renderAll

theorem edit (w : t.WellFormed) {t' : CommandTree} (h : Edit t t') : t'.WellFormed := by
  cases h with
  | attach hb _ room => exact w.attach hb room
  | giveAlias hparent hslot hb _ free unused => exact w.enterAlias hparent hslot hb free unused
  | annotate keeps => exact w.of_outline_eq (outline_annotate keeps)
  | common _ _ => exact w.of_outline_eq (outline_enterCommon ..)

end WellFormed

theorem Reachable.wellFormed {t : CommandTree} (h : t.Reachable) : t.WellFormed :=
  h.invariant .new fun w edit => w.edit edit

end CommandRoutes.CommandTree
