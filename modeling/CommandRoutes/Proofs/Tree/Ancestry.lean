import CommandRoutes.Proofs.Tree.Edit
import Mathlib.Data.Nat.Init

/-!
# Ancestries

The ancestry of an item is a chain towards older items, whatever the tree looks
like: no link to a younger parent is followed. Two trees with the same parents
up to an item have the same ancestry of it, and trees of one outline have the
same ancestries and routes. A lineage follows every link, and ends at the root.
-/
namespace CommandRoutes.CommandTree

variable {t : CommandTree}

/-- The items from this one up to the root, each followed by its parent. -/
inductive Lineage (t : CommandTree) : ItemId → List ItemId → Prop
  | root : Lineage t rootId [rootId]
  | step {id parent : ItemId} {above : List ItemId} :
      t.parent? id = some parent → Lineage t parent above → Lineage t id (id :: above)

theorem Lineage.getLast? {id : ItemId} {lineage : List ItemId} (h : t.Lineage id lineage) :
    lineage.getLast? = some rootId := by
  induction h with
  | root => rfl
  | step _ _ ih => rw [List.getLast?_cons, ih, Option.getD_some]

/-- Membership in an ancestry, one link at a time. -/
theorem mem_ancestry {a id : ItemId} :
    a ∈ t.ancestry id ↔ a = id ∨ ∃ p, t.parent? id = some p ∧ p < id ∧ a ∈ t.ancestry p := by
  rw [ancestry]
  cases hp : t.parent? id with
  | none => simp
  | some p =>
      by_cases hlt : p < id
      · simp [hlt]
      · simp [hlt]

theorem self_mem_ancestry (id : ItemId) : id ∈ t.ancestry id := mem_ancestry.mpr (.inl rfl)

theorem le_of_mem_ancestry {a id : ItemId} (h : a ∈ t.ancestry id) : a ≤ id := by
  induction id using Nat.strong_induction_on with
  | _ id ih =>
      rcases mem_ancestry.mp h with rfl | ⟨p, _, hlt, hp⟩
      · exact Nat.le_refl _
      · exact Nat.le_of_lt (Nat.lt_of_le_of_lt (ih p hlt hp) hlt)

theorem lt_size_of_mem_ancestry {a id : ItemId} (hid : id < t.size) (h : a ∈ t.ancestry id) :
    a < t.size :=
  Nat.lt_of_le_of_lt (le_of_mem_ancestry h) hid

theorem ancestry_congr {t' : CommandTree} {id : ItemId}
    (h : ∀ i ≤ id, t'.parent? i = t.parent? i) : t'.ancestry id = t.ancestry id := by
  induction id using Nat.strong_induction_on with
  | _ id ih =>
      rw [ancestry, ancestry, h id (Nat.le_refl _)]
      cases t.parent? id with
      | none => rfl
      | some p =>
          dsimp only
          split_ifs with hlt
          · rw [ih p hlt fun i hi => h i (Nat.le_trans hi (Nat.le_of_lt hlt))]
          · rfl

theorem ancestry_of_outline_eq {t' : CommandTree} (h : t'.outline = t.outline) (id : ItemId) :
    t'.ancestry id = t.ancestry id :=
  ancestry_congr fun i _ => by rw [← parent?_outline t', h, parent?_outline]

theorem routeOf_of_outline_eq {t' : CommandTree} (h : t'.outline = t.outline) (id : ItemId) :
    t'.routeOf id = t.routeOf id := by
  have hspell : t'.spelling = t.spelling := by
    funext i; rw [← spelling_outline t', h, spelling_outline]
  rw [routeOf, routeOf, trail, trail, ancestry_of_outline_eq h, hspell]

end CommandRoutes.CommandTree
