import CommandRoutes.Listing
import CommandRoutes.Proofs.Tree.Traversal

/-!
# Reading a listing

A reader takes the last line above that is less indented for the verb to which an
item belongs. In a walk this is the parent of the item: whatever is between the two
is below the parent as well and so no less indented than the item. Leaving out other
items does not matter, but if the parent itself is left out then the item is found
under another verb or under none.
-/
namespace CommandRoutes.CommandTree
variable {t : CommandTree}

/-- Where a reader finds an entry of this depth behind these entries. -/
def standsUnder (before : List (Nat × ItemId)) (depth : Nat) : Option ItemId :=
  (before.reverse.find? fun e => e.1 < depth).map Prod.snd

/-- Whether a listing has a line for the item. -/
def Lists (t : CommandTree) (all : Bool) (id : ItemId) : Prop :=
  all = true ∨ (t.get? id).any PathItem.isPrivate = false

instance (all : Bool) : DecidablePred (t.Lists all) :=
  fun _ => inferInstanceAs (Decidable (_ ∨ _))

theorem listed_eq (all : Bool) : t.listed all = t.preorder.filter fun e => t.Lists all e.2 := by
  apply List.filter_congr
  intro e _
  cases all <;> simp [Lists]

theorem standsUnder_eq {above between : List (Nat × ItemId)} {e : Nat × ItemId} {depth : Nat}
    (he : e.1 < depth) (hbetween : ∀ e ∈ between, depth ≤ e.1) :
    standsUnder (above ++ e :: between) depth = some e.2 := by
  have hnone : between.reverse.find? (fun e => e.1 < depth) = none := by
    rw [List.find?_eq_none]
    intro e he
    have hle := hbetween e (List.mem_reverse.mp he)
    simpa using hle
  rw [standsUnder, List.reverse_append, List.reverse_cons, List.append_assoc, List.find?_append,
    hnone]
  simp [he]

theorem standsUnder_zero (before : List (Nat × ItemId)) : standsUnder before 0 = none := by
  simp [standsUnder]

theorem mem_of_standsUnder {before : List (Nat × ItemId)} {depth : Nat} {id : ItemId}
    (h : standsUnder before depth = some id) : id ∈ before.map Prod.snd := by
  obtain ⟨e, hfound, rfl⟩ := Option.map_eq_some_iff.mp h
  have hmem := List.mem_of_find?_eq_some hfound
  exact List.mem_map_of_mem (List.mem_reverse.mp hmem)

namespace WellFormed
variable (w : t.WellFormed)
include w

theorem length_ancestry_of_parent? {id p : ItemId} (hp : t.parent? id = some p) :
    (t.ancestry id).length = (t.ancestry p).length + 1 := by
  rw [w.ancestry_eq id, hp]
  rfl

theorem length_ancestry_lt {a id : ItemId} (h : a ∈ t.ancestry id) (hne : id ≠ a) :
    (t.ancestry a).length < (t.ancestry id).length := by
  induction id using Nat.strong_induction_on with
  | _ id ih =>
      rcases mem_ancestry.mp h with heq | ⟨p, hp, hlt, hmem⟩
      · exact absurd heq.symm hne
      · have hlength := w.length_ancestry_of_parent? hp
        by_cases heq : p = a
        · subst heq
          omega
        · have hbelow := ih p hlt hmem heq
          omega

theorem succ_depth_of_mem_preorder {depth : Nat} {id : ItemId} (h : (depth, id) ∈ t.preorder) :
    depth + 1 = (t.ancestry id).length := by
  rw [w.depth_of_mem_preorder h, w.ancestry_eq id]
  rfl

/-- An item has one place in a walk. -/
theorem eq_of_preorder_eq {before after before' after' : List (Nat × ItemId)} {e : Nat × ItemId}
    (h : t.preorder = before ++ e :: after) (h' : t.preorder = before' ++ e :: after') :
    before = before' := by
  have hnodup : t.preorder.Nodup := w.preorder_nodup.of_map
  rw [h, List.nodup_middle, List.nodup_cons, List.mem_append, not_or] at hnodup
  have hplace := h.symm.trans h'
  exact ((List.append_cons_inj_of_notMem hnodup.1.1 hnodup.1.2).mp hplace).1

/-- A child is among what follows its parent, and up to it there is nothing but what is below the
parent. -/
theorem exists_block_of_parent? {id p : ItemId} (hp : t.parent? id = some p) :
    ∃ above depth' between depth after,
      t.preorder = (above ++ (depth', p) :: between) ++ (depth, id) :: after ∧
        ∀ e ∈ between, e.2 ≠ p ∧ p ∈ t.ancestry e.2 := by
  have hlt := (w.placed hp).1
  have habove := mem_ancestry.mpr (.inr ⟨p, hp, hlt, self_mem_ancestry p⟩)
  obtain ⟨above, depth', below, rest, hblock, hbelow⟩ := w.exists_block (w.parent_lt_size hp)
  have hid := (hbelow id).mpr ⟨Nat.ne_of_gt hlt, habove⟩
  obtain ⟨⟨depth, id'⟩, hentry, hsame⟩ := List.mem_map.mp hid
  obtain rfl : id' = id := hsame
  obtain ⟨between, after, rfl⟩ := List.append_of_mem hentry
  refine ⟨above, depth', between, depth, after ++ rest, ?_, ?_⟩
  · rw [hblock]
    simp
  · intro e he
    exact (hbelow e.2).mp (List.mem_map_of_mem (List.mem_append_left _ he))

/-- In a walk the parent comes before the item, less deep, and whatever is between the two is no
less deep than the item. -/
theorem preorder_parent {before after : List (Nat × ItemId)} {depth : Nat} {id p : ItemId}
    (hsplit : t.preorder = before ++ (depth, id) :: after) (hp : t.parent? id = some p) :
    ∃ above between depth', before = above ++ (depth', p) :: between ∧ depth' < depth ∧
      ∀ e ∈ between, depth ≤ e.1 := by
  obtain ⟨above, depth', between, own, rest, hblock, hbelow⟩ := w.exists_block_of_parent? hp
  have hlength := w.length_ancestry_of_parent? hp
  have hitem : (depth, id) ∈ t.preorder := by simp [hsplit]
  have hsame : (own, id) ∈ t.preorder := by simp [hblock]
  have hparent : (depth', p) ∈ t.preorder := by simp [hblock]
  have hdepth := w.succ_depth_of_mem_preorder hitem
  have hown := w.succ_depth_of_mem_preorder hsame
  have hdepth' := w.succ_depth_of_mem_preorder hparent
  obtain rfl : own = depth := by omega
  refine ⟨above, between, depth', w.eq_of_preorder_eq hsplit hblock, by omega, ?_⟩
  intro (own', i) hentry
  have hmem : (own', i) ∈ t.preorder := by simp [hblock, hentry]
  have hlonger := w.length_ancestry_lt (hbelow _ hentry).2 (hbelow _ hentry).1
  have hdepth'' := w.succ_depth_of_mem_preorder hmem
  dsimp only at hlonger ⊢
  omega

end WellFormed

/-- What is listed in front of an entry is what is shown of the walk up to this entry. -/
theorem exists_preorder_of_listed {all : Bool} {before after : List (Nat × ItemId)}
    {e : Nat × ItemId} (hsplit : t.listed all = before ++ e :: after) :
    ∃ walked rest, t.preorder = walked ++ e :: rest ∧
      before = walked.filter fun e => t.Lists all e.2 := by
  rw [listed_eq] at hsplit
  obtain ⟨walked, tail, hpreorder, hbefore, htail⟩ := List.filter_eq_append_iff.mp hsplit
  obtain ⟨skipped, rest, htail, hskipped, -, -⟩ := List.filter_eq_cons_iff.mp htail
  refine ⟨walked ++ skipped, rest, ?_, ?_⟩
  · rw [hpreorder, htail, List.append_assoc]
  · have hnone := List.filter_eq_nil_iff.mpr hskipped
    rw [List.filter_append, hnone, List.append_nil, hbefore]

/-- An item is found under its parent if the listing shows the parent, and not otherwise. -/
theorem Reachable.listed_standsUnder_iff (h : t.Reachable) {all : Bool}
    {before after : List (Nat × ItemId)} {depth : Nat} {id : ItemId}
    (hsplit : t.listed all = before ++ (depth, id) :: after) :
    standsUnder before depth = t.parent? id ↔ ∀ p, t.parent? id = some p → t.Lists all p := by
  have w := h.wellFormed
  obtain ⟨walked, rest, hpreorder, hbefore⟩ := exists_preorder_of_listed hsplit
  constructor
  · intro hunder p hp
    rw [hp] at hunder
    obtain ⟨e, he, rfl⟩ := List.mem_map.mp (mem_of_standsUnder hunder)
    rw [hbefore] at he
    simpa using (List.mem_filter.mp he).2
  · intro hshown
    cases hp : t.parent? id with
    | none =>
        have hmem : (depth, id) ∈ t.preorder := by
          rw [hpreorder]
          exact List.mem_append_cons_self
        have hdepth := w.depth_of_mem_preorder hmem
        rw [w.ancestry_eq id, hp] at hdepth
        obtain rfl : depth = 0 := hdepth
        exact standsUnder_zero before
    | some p =>
        obtain ⟨above, between, depth', hwalked, hdepth, hbetween⟩ := w.preorder_parent hpreorder hp
        have hentry : t.Lists all p := hshown p hp
        rw [hbefore, hwalked, List.filter_append, List.filter_cons_of_pos (by simpa using hentry)]
        apply standsUnder_eq hdepth
        intro e he
        exact hbetween e (List.mem_of_mem_filter he)

theorem WellFormed.preorder_two_verbs (w : t.WellFormed) (hroot : t.children 0 = [1, 2])
    (hsecond : t.children 2 = [3]) (hleaf : ∀ id ∈ [1, 3], t.children id = []) :
    t.preorder = [(0, 0), (1, 1), (1, 2), (2, 3)] := by
  simp [preorder, rootId, w.preorderFrom_eq, hroot, hsecond, hleaf]

/-- Two verbs, the second private and with a verb below it. The full listing has it in its place. -/
theorem listed_standsUnder_iff_two_verbs :
    let t := CommandTree.new.performAll [.route "a", .route "b/c", .privacy 2 true]
    t.listed true = [(0, 0), (1, 1), (1, 2), (2, 3)] ∧
      standsUnder [(0, 0), (1, 1), (1, 2)] 2 = t.parent? 3 := by
  intro t
  have reached : t.Reachable := Reachable.new.performAll _
  have hpreorder := reached.wellFormed.preorder_two_verbs (by decide +kernel) (by decide +kernel)
    (by decide +kernel)
  have hlisted : t.listed true = [(0, 0), (1, 1), (1, 2)] ++ (2, 3) :: [] := by
    rw [listed, hpreorder]
    decide +kernel
  refine ⟨hlisted, (reached.listed_standsUnder_iff hlisted).mpr ?_⟩
  intro p _
  exact .inl rfl

/-- Without the private verb the one below it is found under the verb in front. -/
theorem listed_under_other_verb :
    let t := CommandTree.new.performAll [.route "a", .route "b/c", .privacy 2 true]
    t.Reachable ∧ t.listed false = [(0, 0), (1, 1)] ++ (2, 3) :: [] ∧
      standsUnder [(0, 0), (1, 1)] 2 = some 1 ∧ t.parent? 3 = some 2 := by
  intro t
  have reached : t.Reachable := Reachable.new.performAll _
  have hpreorder := reached.wellFormed.preorder_two_verbs (by decide +kernel) (by decide +kernel)
    (by decide +kernel)
  refine ⟨reached, ?_, by decide, by decide +kernel⟩
  rw [listed, hpreorder]
  decide +kernel

end CommandRoutes.CommandTree
