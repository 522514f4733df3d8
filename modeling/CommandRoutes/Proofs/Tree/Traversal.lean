import CommandRoutes.Proofs.Text.ByteOrder
import CommandRoutes.Proofs.Tree.Preorder

/-!
# Walking with a stack

A walk keeps a stack of the items still to be entered, each with its depth. A round lists the item
on top and puts its children in its place. In a well-formed tree every round lists the next item of
the preorder, so a walk is over after as many rounds as there are items.

The listing is depth-first: an item is followed by all that is below it, and children of one branch
come in the order of their slots. Static children are ordered by the bytes of their names, switch
items by when they were made.
-/
namespace CommandRoutes

/-- The place of a slot among the slots of a branch. -/
def Slot.rank : Slot → Nat
  | .static _ => 0
  | .dynamic => 1
  | .spread => 2
  | .switchItem => 3

namespace CommandTree
variable {t : CommandTree}

/-! ## Rounds of a walk -/

/-- A walk under way: what is still to be entered, the next item first, and what is listed. -/
structure Traversal where
  stack : List (Nat × ItemId)
  listed : List (Nat × ItemId)

namespace Traversal

def start : Traversal := ⟨[(0, rootId)], []⟩

/-- The last child is pushed first. -/
def push (depth : Nat) (children : List ItemId) (stack : List (Nat × ItemId)) :
    List (Nat × ItemId) :=
  children.reverse.foldl (fun stack child => (depth, child) :: stack) stack

theorem push_eq (depth : Nat) (children : List ItemId) (stack : List (Nat × ItemId)) :
    push depth children stack = children.map (depth, ·) ++ stack := by
  rw [push, List.foldl_reverse, List.foldr_cons_eq_append]

/-- Lists the top of the stack and pushes its children; there is no round on an empty stack. -/
def round (t : CommandTree) : Traversal → Option Traversal
  | ⟨[], _⟩ => none
  | ⟨(depth, id) :: rest, listed⟩ =>
      some ⟨push (depth + 1) (t.children id) rest, listed ++ [(depth, id)]⟩

/-- A walk that is over after so many rounds. -/
inductive Rounds (t : CommandTree) : Nat → Traversal → Traversal → Prop
  | done {s : Traversal} : s.round t = none → Rounds t 0 s s
  | next {n : Nat} {s s' last : Traversal} :
      s.round t = some s' → Rounds t n s' last → Rounds t (n + 1) s last

/-- What the stack comes to, item by item with all that is below. -/
def pending (t : CommandTree) (s : Traversal) : List (Nat × ItemId) :=
  s.stack.flatMap fun e => t.preorderFrom e.1 e.2

theorem eq_of_round_eq_none {s : Traversal} (h : s.round t = none) : s = ⟨[], s.listed⟩ := by
  unfold round at h
  split at h
  · rfl
  · cases h

/-- A round lists the first of the items that are pending. -/
theorem pending_of_round_eq_some (w : t.WellFormed) {s s' : Traversal}
    (h : s.round t = some s') :
    ∃ e, s.pending t = e :: s'.pending t ∧ s'.listed = s.listed ++ [e] := by
  unfold round at h
  split at h
  · cases h
  · next depth id rest listed =>
    cases h
    refine ⟨(depth, id), ?_, rfl⟩
    simp only [pending, push_eq, List.flatMap_cons, List.flatMap_append, List.flatMap_map]
    rw [w.preorderFrom_eq, List.cons_append]

/-- A walk goes on until all that was pending is listed, one item in a round. -/
theorem rounds (w : t.WellFormed) (s : Traversal) :
    Rounds t (s.pending t).length s ⟨[], s.listed ++ s.pending t⟩ := by
  cases hround : s.round t with
  | none =>
      rw [eq_of_round_eq_none hround]
      simpa [pending] using Rounds.done rfl
  | some s' =>
      obtain ⟨e, hpending, hlisted⟩ := pending_of_round_eq_some w hround
      have hlength : (s.pending t).length = (s'.pending t).length + 1 := by
        rw [hpending, List.length_cons]
      have later := rounds w s'
      rw [hlisted, List.append_assoc, List.singleton_append, ← hpending] at later
      rw [hlength]
      exact .next hround later
termination_by (s.pending t).length
decreasing_by omega

end Traversal

/-! ## The listing -/

/-- The order of the children of a branch. Items are numbered in the order in which they are
made. -/
inductive Precedes (t : CommandTree) (i j : ItemId) : Prop
  | slots {slot slot' : Slot} : t.slot? i = some slot → t.slot? j = some slot' →
      slot.rank < slot'.rank → Precedes t i j
  | statics {name name' : String} : t.slot? i = some (.static name) →
      t.slot? j = some (.static name') → Text.bytes name < Text.bytes name' → Precedes t i j
  | switchItems : t.slot? i = some .switchItem → t.slot? j = some .switchItem → i < j →
      Precedes t i j

/-- A listing of all items with their depths, each right before what is below it. -/
structure DepthFirst (t : CommandTree) (listing : List (Nat × ItemId)) : Prop where
  once : (listing.map Prod.snd).Perm (List.range t.size)
  /-- The depth of an item is the number of items above it. -/
  depth_eq : ∀ {depth id}, (depth, id) ∈ listing → depth = (t.ancestry id).tail.length
  /-- What is below an item is all that comes right after it. -/
  block : ∀ {id}, id < t.size → ∃ before depth below after,
    listing = before ++ (depth, id) :: below ++ after ∧
      ∀ i, i ∈ below.map Prod.snd ↔ i ≠ id ∧ id ∈ t.ancestry i
  siblings : (listing.map Prod.snd).Pairwise fun i j =>
    ∀ p, t.parent? i = some p → t.parent? j = some p → t.Precedes i j

/-- Switch items of one branch are kept in the order in which they were made. -/
def SwitchItemsInOrder (t : CommandTree) : Prop :=
  ∀ p, (t.occupants p .switchItem).Pairwise (· < ·)

namespace SwitchItemsInOrder

theorem new : CommandTree.new.SwitchItemsInOrder := by
  intro p
  have hempty : CommandTree.new.occupants p .switchItem = [] := by
    apply List.eq_nil_iff_forall_not_mem.mpr
    intro id hid
    have habove := (WellFormed.new.placed (WellFormed.new.occupant hid).1).1
    have hroot : id = 0 := Nat.lt_one_iff.mp (WellFormed.new.occupant_lt_size hid)
    exact Nat.not_lt_zero p (hroot ▸ habove)
  rw [hempty]
  exact .nil

theorem edit (ordered : t.SwitchItemsInOrder) (w : t.WellFormed) {t' : CommandTree}
    (h : Edit t t') : t'.SwitchItemsInOrder := by
  intro p
  cases h with
  | attach hb _ room =>
      rw [occupants_attachSegment hb room]
      split_ifs
      · rw [List.pairwise_append]
        refine ⟨ordered p, List.pairwise_singleton .., ?_⟩
        intro i hi j hj
        rw [List.mem_singleton.mp hj]
        exact w.occupant_lt_size hi
      · exact ordered p
  | giveAlias _ _ _ _ _ _ =>
      rw [occupants_enterAlias]
      exact ordered p
  | annotate keeps =>
      rw [← occupants_outline, outline_annotate keeps, occupants_outline]
      exact ordered p
  | common _ _ =>
      rw [← occupants_outline, outline_enterCommon, occupants_outline]
      exact ordered p

end SwitchItemsInOrder

theorem Reachable.switchItemsInOrder (h : t.Reachable) : t.SwitchItemsInOrder := by
  have both : t.WellFormed ∧ t.SwitchItemsInOrder :=
    h.invariant (P := fun t => t.WellFormed ∧ t.SwitchItemsInOrder) ⟨.new, .new⟩
      fun both edit => ⟨both.1.edit edit, both.2.edit both.1 edit⟩
  exact both.2

namespace WellFormed
variable (w : t.WellFormed)
include w

/-- The children of a branch come in their order. -/
theorem pairwise_children (ordered : t.SwitchItemsInOrder) (id : ItemId) :
    (t.children id).Pairwise t.Precedes := by
  cases hb : t.branch? id with
  | none => simp [children, hb]
  | some b =>
      have hslot : ∀ {slot child}, child ∈ b.occupants slot → t.slot? child = some slot :=
        w.slot?_of_mem_branch hb
      have hstatic : ∀ {name child}, b.statics.get? name = some child →
          t.slot? child = some (.static name) :=
        fun h => hslot (Branch.mem_occupants_static.mpr h)
      have statics : b.statics.values.Pairwise t.Precedes := by
        apply NameMap.pairwise_values
        intro name name' child child' hlt h h'
        exact .statics (hstatic h) (hstatic h') (Text.bytes_lt hlt)
      have dynamic : (b.occupants .dynamic).Pairwise t.Precedes := by
        cases hd : b.dynamic <;> simp [Branch.occupants, hd]
      have spread : (b.occupants .spread).Pairwise t.Precedes := by
        cases hs : b.spread <;> simp [Branch.occupants, hs]
      have switchItems : (b.occupants .switchItem).Pairwise t.Precedes := by
        have hordered : (b.occupants .switchItem).Pairwise (· < ·) := by
          simpa [occupants, hb] using ordered id
        apply hordered.imp_of_mem
        intro i j hi hj hlt
        exact .switchItems (hslot hi) (hslot hj) hlt
      have across : ∀ slot slot', slot.rank < slot'.rank → ∀ i ∈ b.occupants slot,
          ∀ j ∈ b.occupants slot', t.Precedes i j := by
        intro slot slot' hrank i hi j hj
        exact .slots (hslot hi) (hslot hj) hrank
      have afterStatics : ∀ slot, 0 < slot.rank → ∀ i ∈ b.statics.values,
          ∀ j ∈ b.occupants slot, t.Precedes i j := by
        intro slot hrank i hi
        obtain ⟨name, hname⟩ := NameMap.mem_values.mp hi
        exact across (.static name) slot hrank i (Branch.mem_occupants_static.mpr hname)
      simp only [children, hb, Branch.children_eq, List.pairwise_append, List.forall_mem_append]
      refine ⟨⟨⟨statics, dynamic, ?_⟩, spread, ?_, ?_⟩, switchItems, ⟨?_, ?_⟩, ?_⟩
      · exact afterStatics .dynamic (by decide)
      · exact afterStatics .spread (by decide)
      · exact across .dynamic .spread (by decide)
      · exact afterStatics .switchItem (by decide)
      · exact across .dynamic .switchItem (by decide)
      · exact across .spread .switchItem (by decide)

/-- Two items of one parent, each below one of two siblings, are these siblings. -/
theorem eq_of_below_siblings {a c c' p i j : ItemId} (hc : t.parent? c = some a)
    (hc' : t.parent? c' = some a) (hne : c ≠ c') (hi : c ∈ t.ancestry i)
    (hj : c' ∈ t.ancestry j) (hip : t.parent? i = some p) (hjp : t.parent? j = some p) :
    i = c ∧ j = c' := by
  have hac := (w.placed hc).1
  have hac' := (w.placed hc').1
  -- what is below a sibling without being it has a parent below that sibling
  rcases mem_ancestry.mp hi with rfl | ⟨q, hq, _, hcq⟩
  · cases hc.symm.trans hip
    rcases mem_ancestry.mp hj with rfl | ⟨q, hq, _, hcq⟩
    · exact ⟨rfl, rfl⟩
    · cases hq.symm.trans hjp
      exact absurd (le_of_mem_ancestry hcq) (Nat.not_le.mpr hac')
  · cases hq.symm.trans hip
    rcases mem_ancestry.mp hj with rfl | ⟨q, hq, _, hcq'⟩
    · cases hc'.symm.trans hjp
      exact absurd (le_of_mem_ancestry hcq) (Nat.not_le.mpr hac)
    · cases hq.symm.trans hjp
      exact absurd (w.eq_of_mem_ancestry (w.parent_lt_size hip) hcq hcq' hc hc') hne

theorem pairwise_preorderFrom (ordered : t.SwitchItemsInOrder) {depth : Nat} {a : ItemId}
    (ha : a < t.size) :
    ((t.preorderFrom depth a).map Prod.snd).Pairwise fun i j =>
      ∀ p, t.parent? i = some p → t.parent? j = some p → t.Precedes i j := by
  induction depth, a using preorderFrom.induct t with
  | _ depth a ih =>
      rw [w.map_preorderFrom, List.pairwise_cons, List.pairwise_flatMap]
      refine ⟨?_, ?_, ?_⟩
      · -- an item is no sibling of what is below it
        intro j hj p hap hjp
        obtain ⟨child, hchild, hj⟩ := List.mem_flatMap.mp hj
        have hbelow := w.mem_ancestry_of_child hchild hj
        have habove := w.mem_ancestry_iff_child.mpr
          (.inr ⟨child, w.mem_children_iff.mp hchild, hbelow⟩)
        have hsame : a = j := w.eq_of_mem_ancestry (lt_size_of_parent? hjp) habove
          (self_mem_ancestry j) hap hjp
        have hle : child ≤ a := hsame ▸ le_of_mem_ancestry hbelow
        exact absurd (w.of_mem_children hchild).1 (Nat.not_lt.mpr hle)
      · intro child hchild
        have hlt := w.of_mem_children hchild
        exact ih child hlt hlt.2
      · have apart := (w.children_nodup a).and (w.pairwise_children ordered a)
        refine apart.imp_of_mem ?_
        intro c c' hc hc' hapart i hi j hj p hip hjp
        obtain ⟨hne, hprecedes⟩ := hapart
        obtain ⟨rfl, rfl⟩ := w.eq_of_below_siblings (w.mem_children_iff.mp hc)
          (w.mem_children_iff.mp hc') hne (w.mem_ancestry_of_child hc hi)
          (w.mem_ancestry_of_child hc' hj) hip hjp
        exact hprecedes

/-- What is true of an entry of a walk and passes from each child to its parent is true of the item
that the walk started from. -/
theorem of_mem_preorderFrom {P : Nat → ItemId → Prop} {e : Nat × ItemId} (entry : P e.1 e.2)
    (parent : ∀ {depth a child}, child ∈ t.children a → P (depth + 1) child → P depth a)
    {depth : Nat} {a : ItemId} (he : e ∈ t.preorderFrom depth a) : P depth a := by
  induction depth, a using preorderFrom.induct t with
  | _ depth a ih =>
      rw [w.preorderFrom_eq] at he
      rcases List.mem_cons.mp he with rfl | he
      · exact entry
      · obtain ⟨child, hchild, he⟩ := List.mem_flatMap.mp he
        have hbelow := ih child (w.of_mem_children hchild) he
        exact parent hchild hbelow

theorem depth_of_mem_preorderFrom {depth : Nat} {a : ItemId} {e : Nat × ItemId}
    (he : e ∈ t.preorderFrom depth a) :
    e.1 + (t.ancestry a).length = depth + (t.ancestry e.2).length := by
  apply w.of_mem_preorderFrom
    (P := fun depth a => e.1 + (t.ancestry a).length = depth + (t.ancestry e.2).length) rfl _ he
  intro depth a child hchild hbelow
  rw [w.ancestry_eq child, w.mem_children_iff.mp hchild] at hbelow
  simp only [Option.map_some, Option.getD_some, List.length_cons] at hbelow
  omega

theorem isInfix_preorderFrom {depth : Nat} {a : ItemId} {e : Nat × ItemId}
    (he : e ∈ t.preorderFrom depth a) : t.preorderFrom e.1 e.2 <:+: t.preorderFrom depth a := by
  apply w.of_mem_preorderFrom
    (P := fun depth a => t.preorderFrom e.1 e.2 <:+: t.preorderFrom depth a) List.infix_rfl _ he
  intro depth a child hchild hbelow
  have hpart : t.preorderFrom (depth + 1) child <:+:
      (t.children a).flatMap (t.preorderFrom (depth + 1)) :=
    List.infix_of_mem_flatten (List.mem_map_of_mem hchild)
  rw [w.preorderFrom_eq depth a]
  exact List.infix_cons (hbelow.trans hpart)

theorem depth_of_mem_preorder {depth : Nat} {id : ItemId} (he : (depth, id) ∈ t.preorder) :
    depth = (t.ancestry id).tail.length := by
  have hdepth : depth + (t.ancestry rootId).length = 0 + (t.ancestry id).length :=
    w.depth_of_mem_preorderFrom he
  have hroot : t.ancestry rootId = [rootId] := by
    rw [w.ancestry_eq, (w.parent?_eq_none_iff w.rootId_lt_size).mpr rfl]
    rfl
  rw [hroot, List.length_singleton] at hdepth
  rw [List.length_tail]
  omega

/-- What follows an item in a walk, up to the last item below it. -/
theorem exists_block {id : ItemId} (hid : id < t.size) : ∃ before depth below after,
    t.preorder = before ++ (depth, id) :: below ++ after ∧
      ∀ i, i ∈ below.map Prod.snd ↔ i ≠ id ∧ id ∈ t.ancestry i := by
  obtain ⟨⟨depth, id⟩, he, rfl⟩ := List.mem_map.mp (w.mem_preorder.mpr hid)
  obtain ⟨before, after, hpart⟩ := w.isInfix_preorderFrom he
  have hnodup : ((t.preorderFrom depth id).map Prod.snd).Nodup := w.preorderFrom_nodup hid
  have hmem : ∀ i, i ∈ (t.preorderFrom depth id).map Prod.snd ↔ id ∈ t.ancestry i :=
    fun i => w.mem_preorderFrom hid
  dsimp only at hpart
  rw [w.preorderFrom_eq] at hpart hnodup hmem
  generalize (t.children id).flatMap (t.preorderFrom (depth + 1)) = below at hpart hnodup hmem
  rw [List.map_cons, List.nodup_cons] at hnodup
  refine ⟨before, depth, below, after, hpart.symm, fun i => ?_⟩
  rw [← hmem, List.map_cons, List.mem_cons]
  constructor
  · intro hi
    exact ⟨fun heq => hnodup.1 (heq ▸ hi), .inr hi⟩
  · intro ⟨hne, hi⟩
    exact hi.resolve_left hne

theorem preorder_perm : (t.preorder.map Prod.snd).Perm (List.range t.size) := by
  rw [List.perm_ext_iff_of_nodup w.preorder_nodup List.nodup_range]
  intro id
  rw [w.mem_preorder, List.mem_range]

theorem rounds_start : Traversal.Rounds t t.size .start ⟨[], t.preorder⟩ := by
  have rounds := Traversal.rounds w .start
  have hlength : t.preorder.length = t.size := by
    rw [← List.length_map Prod.snd, w.preorder_perm.length_eq, List.length_range]
  have hpending : Traversal.start.pending t = t.preorder := List.flatMap_singleton ..
  rw [hpending, hlength] at rounds
  exact rounds

end WellFormed

/-- A walk is over after one round for each item, and what it lists is depth-first. -/
theorem Reachable.depthFirst_preorder (h : t.Reachable) :
    Traversal.Rounds t t.size .start ⟨[], t.preorder⟩ ∧ t.DepthFirst t.preorder := by
  have w := h.wellFormed
  exact ⟨w.rounds_start, w.preorder_perm, w.depth_of_mem_preorder, w.exists_block,
    w.pairwise_preorderFrom h.switchItemsInOrder w.rootId_lt_size⟩

/-- Routes of all kinds registered out of order. Switch items keep the order of their making. -/
theorem depthFirst_preorder_all_kinds :
    let t := CommandTree.new.performAll [.route "zoo/:x", .route "é", .route "...rest",
      .route "ant[b]", .route "ant[a]", .route ":any", .route "zoo/all"]
    let listing := [(0, 0), (1, 5), (2, 6), (2, 7), (1, 1), (2, 9), (2, 2), (1, 3), (1, 8), (1, 4)]
    t.Reachable ∧ t.size = 10 ∧ Traversal.Rounds t 10 .start ⟨[], listing⟩ ∧
      t.DepthFirst listing := by
  intro t listing
  have reached : t.Reachable := Reachable.new.performAll _
  have w := reached.wellFormed
  have hsize : t.size = 10 := by decide +kernel
  have hroot : t.children 0 = [5, 1, 3, 8, 4] := by decide +kernel
  have hzoo : t.children 1 = [9, 2] := by decide +kernel
  have hant : t.children 5 = [6, 7] := by decide +kernel
  have hleaf : ∀ id ∈ [2, 3, 4, 6, 7, 8, 9], t.children id = [] := by decide +kernel
  have hlisting : t.preorder = listing := by
    simp [preorder, rootId, listing, w.preorderFrom_eq, hroot, hzoo, hant, hleaf]
  have walked := reached.depthFirst_preorder
  rw [hlisting, hsize] at walked
  exact ⟨reached, hsize, walked⟩

end CommandTree
end CommandRoutes
