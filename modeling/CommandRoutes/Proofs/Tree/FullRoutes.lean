import CommandRoutes.Proofs.Tree.Preorder
import CommandRoutes.Proofs.Tree.Routed

/-!
# Routes of items

In a tree grown by routes the route of an item identifies it, so that a list of
routes of different items names none of them twice. Where no predicate on the way
has a quoted literal with a single quote the route of an item also leads back:
registering it answers with the item and changes nothing.
-/
namespace CommandRoutes

namespace Route

/-- Segments none of which ends a route may be followed by any one segment. -/
theorem misplaced?_concat {segments : List Segment} (h : ∀ s ∈ segments, s.endsRoute = false)
    (last : Segment) : misplaced? (segments ++ [last]) = none := by
  induction segments with
  | nil => simp [misplaced?]
  | cons s rest ih =>
      obtain ⟨hs, hrest⟩ := List.forall_mem_cons.mp h
      simp [misplaced?, hs, ih hrest]

/-- Segments written alike make the same steps. -/
theorem map_step_eq {segments segments' : List Segment} (h : ∀ s ∈ segments, s.Readable)
    (h' : ∀ s ∈ segments', s.Readable)
    (heq : segments.map Segment.render = segments'.map Segment.render) :
    segments.map Segment.step = segments'.map Segment.step := by
  induction segments generalizing segments' with
  | nil =>
      rw [List.map_nil, eq_comm, List.map_eq_nil_iff] at heq
      rw [heq]
  | cons s rest ih =>
      cases segments' with
      | nil => cases heq
      | cons s' rest' =>
          obtain ⟨hs, hrest⟩ := List.forall_mem_cons.mp h
          obtain ⟨hs', hrest'⟩ := List.forall_mem_cons.mp h'
          obtain ⟨hfirst, hothers⟩ := List.cons.inj heq
          obtain ⟨hslot, hlabel⟩ := eq_of_render_eq hs hs' hfirst
          rw [List.map_cons, List.map_cons, ih hrest hrest' hothers, Segment.step, Segment.step,
            hslot, hlabel]

end Route

namespace CommandTree
variable {t : CommandTree}

theorem mem_segmentsTo {id : ItemId} {s : Segment} :
    s ∈ t.segmentsTo id ↔ ∃ a ∈ t.ancestry id, t.segment? a = some s := by
  simp [segmentsTo, trail]

theorem Legible.readable_segmentsTo (l : t.Legible) (id : ItemId) :
    ∀ s ∈ t.segmentsTo id, s.Readable := by
  intro s hs
  obtain ⟨a, _, hsegment⟩ := mem_segmentsTo.mp hs
  exact l a s hsegment

namespace WellFormed
variable (w : t.WellFormed)
include w

/-- No segment on the way to a branch ends a route. -/
theorem endsRoute_of_mem_segmentsTo {id : ItemId} {b : Branch} (hb : t.branch? id = some b) :
    ∀ s ∈ t.segmentsTo id, s.endsRoute = false := by
  intro s hs
  obtain ⟨a, ha, hsegment⟩ := mem_segmentsTo.mp hs
  obtain ⟨_, hbranch⟩ := w.exists_branch_of_mem_ancestry hb ha
  exact endsRoute_of_branch? hbranch hsegment

theorem registrable_segmentsTo (l : t.Legible) {id : ItemId} (hid : id < t.size) :
    Route.Registrable (t.segmentsTo id) := by
  refine ⟨fun s hs => (l.readable_segmentsTo id s hs).wellNamed, ?_⟩
  cases hp : t.parent? id with
  | none =>
      rw [(w.parent?_eq_none_iff hid).mp hp, w.segmentsTo_rootId]
      rfl
  | some p =>
      obtain ⟨s, hs⟩ := w.exists_segment_of_parent? hp
      obtain ⟨b, hb⟩ := w.exists_branch_of_parent? hp
      rw [w.segmentsTo_of_parent? hp hs]
      exact Route.misplaced?_concat (w.endsRoute_of_mem_segmentsTo hb) s

/-- Different items have different routes. -/
theorem eq_of_routeOf_eq (l : t.Legible) {i j : ItemId} (hi : i < t.size) (hj : j < t.size)
    (h : t.routeOf i = t.routeOf j) : i = j := by
  have readable := l.readable_segmentsTo
  rw [w.routeOf_eq hi, w.routeOf_eq hj] at h
  have hrender := String.append_right_inj _ |>.mp h
  have htexts := Route.map_render_eq (w.registrable_segmentsTo l hi) (w.registrable_segmentsTo l hj)
    (readable i) (readable j) hrender
  exact w.eq_of_address_eq hi hj (Route.map_step_eq (readable i) (readable j) htexts)

/-- A plain route leads back to its item. -/
theorem ensureLeaf_routeOf (l : t.Legible) {id : ItemId} (hid : id < t.size)
    (plain : ∀ predicates, t.predicates? id = some predicates → ∀ p ∈ predicates, p.Plain) :
    t.ensureLeaf (t.routeOf id) = ⟨t, .ok id⟩ := by
  have ready := w.registrable_segmentsTo l hid
  have allPlain : ∀ s ∈ t.segmentsTo id, s.Plain := by
    intro s hs
    obtain ⟨a, ha, hsegment⟩ := mem_segmentsTo.mp hs
    cases s with
    | static name => trivial
    | dynamic name => trivial
    | spread name => trivial
    | switch predicates =>
        -- a switch item is nothing's ancestor but its own
        rcases mem_ancestry.mp ha with rfl | ⟨p, hp, _, hap⟩
        · exact plain predicates (segment?_eq_switch.mp hsegment)
        · obtain ⟨b, hb⟩ := w.exists_branch_of_parent? hp
          obtain ⟨_, hbranch⟩ := w.exists_branch_of_mem_ancestry hb hap
          cases endsRoute_of_branch? hbranch hsegment
  have hread : Route.read (t.routeOf id) = .ok (t.segmentsTo id) := by
    rw [w.routeOf_eq hid]
    exact Route.read_slash_render ready (l.readable_segmentsTo id) allPlain
  obtain ⟨ids, hchain, hlast⟩ := w.exists_chain_segmentsTo hid
  have hensure := hchain.ensureSegments w ready.named
  rw [ensureLeaf, t.ensureRoute_of_read hread]
  simp [hensure, Grown.map, Except.map, hlast]

end WellFormed
end CommandTree

namespace Dispatcher
variable {m : Type → Type}

/-- The call adds items only as a route asks for them. -/
def Call.ByRoute : Call m → Prop
  | .change c => c.ByRoute
  | _ => True

/-- The dispatchers whose trees are grown by routes. -/
inductive Routed : Dispatcher m → Prop
  | empty (options : Options) : Routed { options }
  | perform {d : Dispatcher m} {c : Call m} : c.ByRoute → Routed d → Routed (d.perform c).2

theorem Routed.tree {d : Dispatcher m} (h : d.Routed) : d.tree.Routed := by
  induction h with
  | empty options => exact .new
  | @perform d c hc _ ih =>
      cases c with
      | change c => exact .perform hc ih
      | on route callback =>
          change ((d.register route callback).2.tree).Routed
          rw [tree_register]
          exact .perform (c := .route route) trivial ih
      | bind item callback => exact ih
      | hook hook => exact ih

/-- Routes identify the items of a dispatcher filled by routes, none is listed twice, and the route
of an item whose predicates hold no single quote in a quoted literal leads back to it. -/
theorem Routed.routes_faithful {d : Dispatcher m} (h : d.Routed) :
    (∀ i < d.tree.size, ∀ j < d.tree.size, d.tree.routeOf i = d.tree.routeOf j → i = j) ∧
    d.publicRoutes.Nodup ∧
    ∀ id < d.tree.size,
      (∀ predicates, d.tree.predicates? id = some predicates → ∀ p ∈ predicates, p.Plain) →
      d.tree.ensureLeaf (d.tree.routeOf id) = ⟨d.tree, .ok id⟩ := by
  have w := h.tree.reachable.wellFormed
  have l := h.tree.legible
  refine ⟨fun i hi j hj => w.eq_of_routeOf_eq l hi hj, ?_, fun id hid => w.ensureLeaf_routeOf l hid⟩
  refine List.Nodup.map_on (fun i hi j hj heq => ?_) (w.preorder_nodup.filter _)
  have hi := w.mem_preorder.mp (List.mem_of_mem_filter hi)
  have hj := w.mem_preorder.mp (List.mem_of_mem_filter hj)
  exact w.eq_of_routeOf_eq l hi hj heq

/-- A literal with a slash and brackets in its quotes is read back. -/
theorem routes_faithful_slash_in_literal :
    let d := ((({} : Dispatcher Id).perform
      (.on "/deploy/:env[at=\"/[x]\"]" (.proceed none))).2.perform
      (.change (.giveAlias 1 "ship"))).2
    d.Routed ∧ d.tree.routeOf 3 = "/deploy/:env/[at='/[x]']" ∧
      d.tree.ensureLeaf "/deploy/:env/[at='/[x]']" = ⟨d.tree, .ok 3⟩ := by
  intro d
  have routed : d.Routed := .perform trivial (.perform trivial (.empty {}))
  have hroute : d.tree.routeOf 3 = "/deploy/:env/[at='/[x]']" := by decide +kernel
  have hstored : d.tree.predicates? 3 = some [⟨"at", some (.quoted "/[x]")⟩] := by decide +kernel
  have hlead := routed.routes_faithful.2.2 3 (by decide +kernel) fun predicates hpredicates => by
    cases hstored.symm.trans hpredicates
    simp [Predicate.Plain, Literal.Plain]
  exact ⟨routed, hroute, hroute ▸ hlead⟩

end Dispatcher
end CommandRoutes
