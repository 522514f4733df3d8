import CommandRoutes.Proofs.Tree.Address

/-!
# Walks

A walk over a well-formed tree meets every item once. What it meets below an item
are the items that have it among their ancestors, and no item is below two
children of one branch.
-/
namespace CommandRoutes

theorem NameMap.pairwise_values {α : Type} {m : NameMap α} {r : α → α → Prop}
    (h : ∀ {k k' v v'}, k < k' → m.get? k = some v → m.get? k' = some v' → r v v') :
    m.values.Pairwise r := by
  refine List.pairwise_map.mpr (m.sorted.imp_of_mem fun {e e'} he he' hlt => ?_)
  exact h hlt (NameMap.mem_entries.mp he) (NameMap.mem_entries.mp he')

theorem Branch.children_eq (b : Branch) :
    b.children = b.statics.values ++ b.occupants .dynamic ++ b.occupants .spread ++
      b.occupants .switchItem := rfl

theorem Branch.mem_occupants_static {b : Branch} {name : String} {child : ItemId} :
    child ∈ b.occupants (.static name) ↔ b.statics.get? name = some child := by simp [occupants]

namespace CommandTree.WellFormed
variable {t : CommandTree} (w : t.WellFormed)
include w

theorem mem_children_iff {id child : ItemId} :
    child ∈ t.children id ↔ t.parent? child = some id := by
  rw [mem_children]
  constructor
  · rintro ⟨slot, h⟩
    exact (w.occupant h).1
  · intro h
    obtain ⟨_, slot, _, hmem⟩ := w.placed h
    exact ⟨slot, hmem⟩

/-- A child fits the slot in which it stands. -/
theorem slot?_of_mem_branch {id child : ItemId} {b : Branch} {slot : Slot}
    (hb : t.branch? id = some b) (h : child ∈ b.occupants slot) : t.slot? child = some slot :=
  (w.occupant (p := id) (by simpa [occupants, hb] using h)).2

/-- A branch lists no child twice. -/
theorem children_nodup (id : ItemId) : (t.children id).Nodup := by
  cases hb : t.branch? id with
  | none => simp [children, hb]
  | some b =>
      have apart : ∀ {slot slot'}, slot ≠ slot' →
          (b.occupants slot).Disjoint (b.occupants slot') := by
        intro slot slot' hne child h h'
        have hslot := w.slot?_of_mem_branch hb h
        exact hne (Option.some.inj (hslot.symm.trans (w.slot?_of_mem_branch hb h')))
      have nodup : ∀ slot, (b.occupants slot).Nodup := by
        intro slot
        simpa [occupants, hb] using w.occupants_nodup id slot
      have statics : b.statics.values.Nodup := by
        refine NameMap.pairwise_values fun {name name' child child'} hlt h h' heq => ?_
        have hne : name ≠ name' := fun hname => String.lt_irrefl name' (hname ▸ hlt)
        exact apart (by simpa using hne) (Branch.mem_occupants_static.mpr h)
          (Branch.mem_occupants_static.mpr (heq ▸ h'))
      have apart_statics : ∀ {slot}, (∀ name, slot ≠ .static name) →
          b.statics.values.Disjoint (b.occupants slot) := by
        intro slot hslot child h h'
        obtain ⟨name, hname⟩ := NameMap.mem_values.mp h
        exact apart (hslot name).symm (Branch.mem_occupants_static.mpr hname) h'
      simp only [children, hb, Branch.children_eq, List.nodup_append',
        List.disjoint_append_left]
      exact ⟨⟨⟨statics, nodup _, apart_statics (by simp)⟩, nodup _, apart_statics (by simp),
        apart (by simp)⟩, nodup _, ⟨apart_statics (by simp), apart (by simp)⟩, apart (by simp)⟩

/-- What is below an item is below one of its children. -/
theorem mem_ancestry_iff_child {a id : ItemId} :
    a ∈ t.ancestry id ↔ a = id ∨ ∃ child, t.parent? child = some a ∧ child ∈ t.ancestry id := by
  induction id using Nat.strong_induction_on with
  | _ id ih =>
      constructor
      · intro h
        rcases mem_ancestry.mp h with rfl | ⟨p, hp, hlt, hmem⟩
        · exact .inl rfl
        · refine .inr ?_
          rcases (ih p hlt).mp hmem with rfl | ⟨child, hchild, hbelow⟩
          · exact ⟨id, hp, self_mem_ancestry id⟩
          · exact ⟨child, hchild, mem_ancestry.mpr (.inr ⟨p, hp, hlt, hbelow⟩)⟩
      · rintro (rfl | ⟨child, hchild, hmem⟩)
        · exact self_mem_ancestry a
        · rcases mem_ancestry.mp hmem with rfl | ⟨p, hp, hlt, hbelow⟩
          · exact mem_ancestry.mpr
              (.inr ⟨a, hchild, (w.placed hchild).1, self_mem_ancestry a⟩)
          · have habove := (ih p hlt).mpr (.inr ⟨child, hchild, hbelow⟩)
            exact mem_ancestry.mpr (.inr ⟨p, hp, hlt, habove⟩)

/-- Two ancestors of one item are not siblings. -/
theorem eq_of_mem_ancestry {a a' p id : ItemId} (hid : id < t.size) (ha : a ∈ t.ancestry id)
    (ha' : a' ∈ t.ancestry id) (hp : t.parent? a = some p) (hp' : t.parent? a' = some p) :
    a = a' := by
  have hlt := lt_size_of_parent? hp
  have hlt' := lt_size_of_parent? hp'
  obtain ⟨s, hs⟩ := w.exists_segment_of_parent? hp
  obtain ⟨s', hs'⟩ := w.exists_segment_of_parent? hp'
  have haddress := w.address_of_parent? hp (show t.step? a = some s.step by simp [step?, hs])
  have haddress' := w.address_of_parent? hp' (show t.step? a' = some s'.step by simp [step?, hs'])
  refine w.eq_of_address_eq hlt hlt' (List.IsPrefix.eq_of_length ?_ ?_)
  · refine List.prefix_of_prefix_length_le ((w.mem_ancestry_iff hlt hid).mp ha)
      ((w.mem_ancestry_iff hlt' hid).mp ha') ?_
    simp [haddress, haddress']
  · simp [haddress, haddress']

theorem map_preorderFrom (depth : Nat) (id : ItemId) :
    (t.preorderFrom depth id).map Prod.snd =
      id :: (t.children id).flatMap fun child =>
        (t.preorderFrom (depth + 1) child).map Prod.snd := by
  rw [w.preorderFrom_eq, List.map_cons, List.map_flatMap]

/-- The walk from an item meets what has the item among its ancestors. -/
theorem mem_preorderFrom {depth : Nat} {a id : ItemId} (ha : a < t.size) :
    id ∈ (t.preorderFrom depth a).map Prod.snd ↔ a ∈ t.ancestry id := by
  induction depth, a using preorderFrom.induct t with
  | _ depth a ih =>
      rw [w.map_preorderFrom, List.mem_cons, List.mem_flatMap, w.mem_ancestry_iff_child, eq_comm]
      refine or_congr_right (exists_congr fun child => ?_)
      rw [w.mem_children_iff]
      refine and_congr_right fun hchild => ?_
      have hlt := lt_size_of_parent? hchild
      exact ih child ⟨(w.placed hchild).1, hlt⟩ hlt

theorem mem_ancestry_of_child {depth : Nat} {a child id : ItemId} (hchild : child ∈ t.children a)
    (hid : id ∈ (t.preorderFrom depth child).map Prod.snd) : child ∈ t.ancestry id :=
  (w.mem_preorderFrom (w.of_mem_children hchild).2).mp hid

theorem preorderFrom_nodup {depth : Nat} {a : ItemId} (ha : a < t.size) :
    ((t.preorderFrom depth a).map Prod.snd).Nodup := by
  induction depth, a using preorderFrom.induct t with
  | _ depth a ih =>
      rw [w.map_preorderFrom, List.nodup_cons, List.nodup_flatMap]
      refine ⟨fun hmem => ?_, fun child hchild => ?_, ?_⟩
      · obtain ⟨child, hchild, hid⟩ := List.mem_flatMap.mp hmem
        have hle : child ≤ a := le_of_mem_ancestry (w.mem_ancestry_of_child hchild hid)
        exact Nat.not_lt.mpr hle (w.of_mem_children hchild).1
      · have hlt := w.of_mem_children hchild
        exact ih child hlt hlt.2
      · refine (w.children_nodup a).imp_of_mem fun {c c'} hc hc' hne => ?_
        intro id hid hid'
        obtain ⟨e, he, rfl⟩ := List.mem_map.mp hid
        have hlt := w.lt_size_of_mem_preorderFrom (w.of_mem_children hc).2 he
        exact hne (w.eq_of_mem_ancestry hlt (w.mem_ancestry_of_child hc hid)
          (w.mem_ancestry_of_child hc' hid') (w.mem_children_iff.mp hc)
          (w.mem_children_iff.mp hc'))

/-- A walk meets every item once. -/
theorem mem_preorder {id : ItemId} : id ∈ t.preorder.map Prod.snd ↔ id < t.size := by
  rw [preorder, w.mem_preorderFrom w.rootId_lt_size]
  constructor
  · intro h
    by_contra hlt
    have hnone : t.parent? id = none := by
      rw [parent?, get?_eq_none (Nat.not_lt.mp hlt)]
      rfl
    rcases mem_ancestry.mp h with rfl | ⟨p, hp, _⟩
    · exact hlt w.rootId_lt_size
    · cases hnone.symm.trans hp
  · intro h
    exact List.mem_of_getLast? (w.lineage_ancestry h).getLast?

theorem preorder_nodup : (t.preorder.map Prod.snd).Nodup := w.preorderFrom_nodup w.rootId_lt_size

end CommandTree.WellFormed
end CommandRoutes
