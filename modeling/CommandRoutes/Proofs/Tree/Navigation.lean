import CommandRoutes.Proofs.Registration
import CommandRoutes.Proofs.Tree.WellFormed
import CommandRoutes.Verification

/-!
# Navigation

In a well-formed tree going up and going down never run into the guards of
their definitions: an ancestry follows every link and ends at the root, a walk
enters every child. Whatever walking, matching and verifying look up is an item
of the tree.
-/
namespace CommandRoutes.CommandTree
namespace WellFormed

variable {t : CommandTree} (w : t.WellFormed)
include w

theorem ancestry_eq (id : ItemId) :
    t.ancestry id = id :: ((t.parent? id).map t.ancestry).getD [] := by
  rw [ancestry]
  cases hp : t.parent? id with
  | none => rfl
  | some p =>
      have hlt := (w.placed hp).1
      simp [hlt]

theorem lineage_ancestry {id : ItemId} (hid : id < t.size) : t.Lineage id (t.ancestry id) := by
  induction id using Nat.strong_induction_on with
  | _ id ih =>
      rw [w.ancestry_eq]
      cases hp : t.parent? id with
      | none =>
          obtain rfl := (w.parent?_eq_none_iff hid).mp hp
          exact .root
      | some p =>
          have hlt := (w.placed hp).1
          exact .step hp (ih p hlt (Nat.lt_trans hlt hid))

theorem of_mem_children {id child : ItemId} (h : child ∈ t.children id) :
    id < child ∧ child < t.size := by
  obtain ⟨slot, hslot⟩ := mem_children.mp h
  have hparent := (w.occupant hslot).1
  exact ⟨(w.placed hparent).1, lt_size_of_parent? hparent⟩

theorem preorderFrom_eq (depth : Nat) (id : ItemId) :
    t.preorderFrom depth id =
      (depth, id) :: (t.children id).flatMap (t.preorderFrom (depth + 1)) := by
  rw [preorderFrom]
  congr 1
  refine List.flatMap_congr fun child hchild => ?_
  rw [dif_pos (w.of_mem_children hchild)]

theorem lt_size_of_mem_preorderFrom {depth : Nat} {id : ItemId} (hid : id < t.size)
    {e : Nat × ItemId} (he : e ∈ t.preorderFrom depth id) : e.2 < t.size := by
  induction depth, id using preorderFrom.induct t with
  | _ depth id ih =>
      rw [w.preorderFrom_eq] at he
      rcases List.mem_cons.mp he with rfl | he
      · exact hid
      · obtain ⟨child, hchild, he⟩ := List.mem_flatMap.mp he
        have hlt := w.of_mem_children hchild
        exact ih child hlt hlt.2 he

theorem lt_size_of_literalChild? {id next : ItemId} {b : Branch} {token : String}
    (hb : t.branch? id = some b) (h : b.literalChild? token = some next) : next < t.size := by
  rcases Option.or_eq_some_iff.mp h with hs | ⟨_, ha⟩
  · have hmem : next ∈ t.occupants id (.static token) := by
      simp [occupants, hb, Branch.occupants, hs]
    exact w.occupant_lt_size hmem
  · have halias : t.aliased? id token = some next := by simp [aliased?, hb, ha]
    exact lt_size_of_parent? (w.aliased?_iff.mp halias).1

theorem lt_size_of_followFrom {tokens : List String} {current : ItemId} (hc : current < t.size)
    {r : ItemId × Bindings} (h : t.followFrom current tokens = some r) : r.1 < t.size := by
  induction tokens generalizing current r with
  | nil =>
      cases h
      exact hc
  | cons token rest ih =>
      unfold followFrom at h
      cases hb : t.branch? current with
      | none => simp [hb] at h
      | some b =>
          simp only [hb] at h
          cases hl : b.literalChild? token with
          | some next =>
              simp only [hl] at h
              exact ih (w.lt_size_of_literalChild? hb hl) h
          | none =>
              simp only [hl] at h
              cases hd : b.dynamic with
              | some next =>
                  simp only [hd] at h
                  obtain ⟨r', hr', rfl⟩ := Option.map_eq_some_iff.mp h
                  have hmem : next ∈ t.occupants current .dynamic := by
                    simp [occupants, hb, Branch.occupants, hd]
                  exact ih (r := r') (w.occupant_lt_size hmem) hr'
              | none =>
                  simp only [hd] at h
                  cases hs : b.spread with
                  | none => simp [hs] at h
                  | some next =>
                      simp only [hs] at h
                      cases h
                      have hmem : next ∈ t.occupants current .spread := by
                        simp [occupants, hb, Branch.occupants, hs]
                      exact w.occupant_lt_size hmem

theorem lt_size_of_selectItem? {id next : ItemId} {short long : Supplied}
    (h : t.selectItem? id short long = some next) : next < t.size := by
  unfold selectItem? at h
  split_ifs at h
  cases hb : t.branch? id with
  | none => simp [hb] at h
  | some b =>
      simp only [hb] at h
      have hmem : next ∈ t.occupants id .switchItem := by
        simpa [occupants, hb, Branch.occupants] using List.mem_of_find?_eq_some h
      exact w.occupant_lt_size hmem

theorem lt_size_of_verbOf? {id p : ItemId} (h : t.verbOf? id = some p) : p < t.size := by
  unfold verbOf? at h
  split at h
  · next hitem =>
      have hparent : t.parent? id = some p := by simp [parent?, hitem, h]
      exact w.parent_lt_size hparent
  · cases h

end WellFormed

/-- Links are followed to their ends, and only to items of the tree. -/
structure Navigable (t : CommandTree) : Prop where
  ancestry_eq : ∀ id, t.ancestry id = id :: ((t.parent? id).map t.ancestry).getD []
  ends_at_root : ∀ id < t.size, (t.ancestry id).getLast? = some rootId
  ancestor_lt_size : ∀ id < t.size, ∀ a ∈ t.ancestry id, a < t.size
  walk_eq : ∀ depth id, t.preorderFrom depth id =
    (depth, id) :: (t.children id).flatMap (t.preorderFrom (depth + 1))
  walk_lt_size : ∀ e ∈ t.preorder, e.2 < t.size
  child_lt_size : ∀ id, ∀ child ∈ t.children id, child < t.size
  literalChild_lt_size : ∀ id b token next, t.branch? id = some b →
    b.literalChild? token = some next → next < t.size
  match_lt_size : ∀ commands r, t.follow commands = some r → r.1 < t.size
  selected_lt_size : ∀ id short long next, t.selectItem? id short long = some next →
    next < t.size
  verb_lt_size : ∀ id p, t.verbOf? id = some p → p < t.size

theorem WellFormed.navigable {t : CommandTree} (w : t.WellFormed) : t.Navigable where
  ancestry_eq := w.ancestry_eq
  ends_at_root _ hid := (w.lineage_ancestry hid).getLast?
  ancestor_lt_size _ hid _ ha := lt_size_of_mem_ancestry hid ha
  walk_eq := w.preorderFrom_eq
  walk_lt_size _ he := w.lt_size_of_mem_preorderFrom w.rootId_lt_size he
  child_lt_size _ _ h := (w.of_mem_children h).2
  literalChild_lt_size _ _ _ _ hb h := w.lt_size_of_literalChild? hb h
  match_lt_size _ _ h := w.lt_size_of_followFrom w.rootId_lt_size h
  selected_lt_size _ _ _ _ h := w.lt_size_of_selectItem? h
  verb_lt_size _ _ h := w.lt_size_of_verbOf? h

end CommandRoutes.CommandTree

namespace CommandRoutes.Dispatcher

/-- The tree of a dispatcher is sound whatever calls have filled it, failed ones included:
well-formed, each item but the root found once and below a branch, no link leading out. -/
theorem Reachable.tree_sound {m : Type → Type} {d : Dispatcher m} (h : d.Reachable) :
    d.tree.WellFormed ∧
    (∀ id p, d.tree.parent? id = some p →
      (∃ b, d.tree.branch? p = some b) ∧
      ∀ q slot, (d.tree.occupants q slot).count id =
        if q = p ∧ d.tree.slot? id = some slot then 1 else 0) ∧
    d.tree.Navigable := by
  have w := h.tree.wellFormed
  exact ⟨w, fun id p hp => ⟨w.exists_branch_of_parent? hp, w.count_occupants hp⟩, w.navigable⟩

/-- An alias is given, and a static item of its name is then refused. -/
theorem tree_sound_after_alias :
    let d : Dispatcher Id := ((((({} : Dispatcher Id).perform
      (.change (.static 0 "remove"))).2.perform
      (.change (.giveAlias 1 "rm"))).2.perform
      (.change (.static 0 "rm"))).2.perform
      (.bind 1 (.proceed none))).2
    d.Reachable ∧ d.tree.parent? 1 = some 0 ∧ d.tree.aliased? 0 "rm" = some 1 ∧
      d.tree.WellFormed := by
  intro d
  have reached : d.Reachable := ((((Reachable.empty {}).perform _).perform _).perform _).perform _
  exact ⟨reached, by decide, by decide, reached.tree_sound.1⟩

end CommandRoutes.Dispatcher
