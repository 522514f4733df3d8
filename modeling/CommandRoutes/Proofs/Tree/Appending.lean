import CommandRoutes.Proofs.Tree.Ensuring
import CommandRoutes.Proofs.Route.Grammar

/-!
# Registering appends

A route that is registered is answered with one item for each of its segments,
each a child of the one before and written as its segment is. The items that were
there before stay what they are, apart from new children, and stay where they are.
The other ones in the answer are all that is new, numbered in order. To register
the route once more, with or without a slash in front, gives the same answer and
changes nothing.
-/
namespace CommandRoutes

/-- The branch without its children. -/
def Branch.childless (b : Branch) : Branch :=
  { b with statics := .empty, dynamic := none, spread := none, switchItems := [] }

theorem Branch.childless_enter (slot : Slot) (id : ItemId) (b : Branch) :
    (slot.enter id b).childless = b.childless := by
  cases slot <;> rfl

/-- Everything about the item but its children. -/
def PathItem.childless (item : PathItem) : PathItem := item.withBranch Branch.childless

theorem PathItem.childless_withBranch {f : Branch → Branch}
    (h : ∀ b, (f b).childless = b.childless) (item : PathItem) :
    (item.withBranch f).childless = item.childless := by
  have hcomp : Branch.childless ∘ f = Branch.childless := funext h
  simp only [childless, withBranch, ItemKind.mapBranch_mapBranch, hcomp]

namespace CommandTree
variable {t : CommandTree}

def childless? (t : CommandTree) (id : ItemId) : Option PathItem :=
  (t.get? id).map PathItem.childless

/-! ## Old items -/

theorem childless?_attachSegment {parent : ItemId} {b : Branch} {s : Segment}
    (hb : t.branch? parent = some b) {i : ItemId} (hi : i < t.size) :
    (t.attachSegment parent s).tree.childless? i = t.childless? i := by
  rw [childless?, childless?, get?_attachSegment hb, if_neg (Nat.ne_of_lt hi)]
  split_ifs
  · rw [Option.map_map]
    exact congrArg (Option.map · (t.get? i))
      (funext (PathItem.childless_withBranch (Branch.childless_enter s.slot t.size)))
  · rfl

theorem childless?_ensureSegment (parent : ItemId) (s : Segment) {i : ItemId} (hi : i < t.size) :
    (t.ensureSegment parent s).tree.childless? i = t.childless? i := by
  have ensured := t.ensured_ensureSegment parent s
  generalize t.ensureSegment parent s = g at ensured
  cases ensured with
  | refused e => rfl
  | reused _ _ => rfl
  | attached hb _ _ => exact childless?_attachSegment hb hi

theorem childless?_ensureSegments (parent : ItemId) (segments : List Segment) {i : ItemId}
    (hi : i < t.size) : (t.ensureSegments parent segments).tree.childless? i = t.childless? i := by
  induction segments generalizing t parent with
  | nil => rfl
  | cons s rest ih =>
      have hfirst := childless?_ensureSegment parent s hi
      have hgrown := (Extends.of_edits (t.ensured_ensureSegment parent s).edits).size_le
      unfold ensureSegments Grown.andThen
      cases (t.ensureSegment parent s).result with
      | error e => exact hfirst
      | ok id => exact (ih id (Nat.lt_of_lt_of_le hi hgrown)).trans hfirst

/-! ## New items -/

/-- The new ones among the items of the segments are those that the tree has got, in order. -/
theorem WellFormed.filter_ensureSegments (w : t.WellFormed) {parent : ItemId}
    {segments : List Segment} {ids : List ItemId}
    (h : (t.ensureSegments parent segments).result = .ok ids) :
    ids.filter (t.size ≤ ·) =
      List.range' t.size ((t.ensureSegments parent segments).tree.size - t.size) := by
  induction segments generalizing t parent ids with
  | nil =>
      cases h
      simp [ensureSegments]
  | cons s rest ih =>
      obtain ⟨first, lower, hfirst, hlower, rfl⟩ := ensureSegments_cons_eq_ok.mp h
      have ensured := t.ensured_ensureSegment parent s
      have w' := w.edits ensured.edits
      have chain := w'.chain_of_ensureSegments hlower
      have hgrown := (Extends.of_edits
        (edits_ensureSegments rest (t.ensureSegment parent s).tree first)).size_le
      rw [ensureSegments_cons_ok hfirst]
      generalize t.ensureSegment parent s = g at *
      cases ensured with
      | refused e => cases hfirst
      | reused hocc _ =>
          cases hfirst
          have hold : ¬t.size ≤ first := Nat.not_le.mpr (w.occupant_lt_size hocc)
          rw [List.filter_cons_of_neg (by simpa using hold)]
          exact ih w hlower
      | attached hb _ _ =>
          cases hfirst
          -- what is below the new item is younger than it
          have hbelow : lower.filter (t.size ≤ ·) = lower.filter (t.size + 1 ≤ ·) := by
            refine List.filter_congr fun i hi => ?_
            have hlt := chain.lt_of_mem (w'.edits (edits_ensureSegments ..)) hi
            exact decide_eq_decide.mpr ⟨fun _ => hlt, Nat.le_of_succ_le⟩
          have hnext := ih w' hlower
          rw [size_attachSegment] at hnext hgrown
          rw [List.filter_cons_of_pos (by simp), hbelow, hnext, ← List.range'_succ]
          congr 1
          simp only [Grown.map]
          omega

/-! ## The items of a route -/

namespace Chain
variable {parent : ItemId} {segments : List Segment} {ids : List ItemId}

theorem map_spelling (h : Chain t parent segments ids) :
    ids.map t.spelling = segments.map Segment.render := by
  induction h with
  | nil => rfl
  | @cons _ _ s _ _ stands _ ih =>
      rw [List.map_cons, List.map_cons, ih, spelling_of_step? stands.2, s.spelling_step]

theorem isChain (w : t.WellFormed) (h : Chain t parent segments ids) :
    (parent :: ids).IsChain fun p id => t.parent? id = some p ∧ id ∈ t.children p := by
  induction h with
  | nil => exact .singleton _
  | cons stands _ ih =>
      have hmem := (w.standsAt_iff.mp stands).1
      exact .cons_cons ⟨stands.1, mem_children.mpr ⟨_, hmem⟩⟩ ih

end Chain

/-- The second tree is the first one with these items for a route of these segments. -/
structure Registers (t t' : CommandTree) (segments : List Segment) (ids : List ItemId) : Prop where
  length_eq : ids.length = segments.length
  linked : (rootId :: ids).IsChain fun p id => t'.parent? id = some p ∧ id ∈ t'.children p
  spelled : ids.map t'.spelling = segments.map Segment.render
  kept : ∀ i < t.size, t'.childless? i = t.childless? i ∧ t'.ancestry i = t.ancestry i ∧
    t'.routeOf i = t.routeOf i
  size_le : t.size ≤ t'.size
  /-- The new ones among the items are all that the tree has got, in order. -/
  appended : ids.filter (t.size ≤ ·) = List.range' t.size (t'.size - t.size)

theorem WellFormed.registers_ensureSegments (w : t.WellFormed) {segments : List Segment}
    {ids : List ItemId} (h : (t.ensureSegments rootId segments).result = .ok ids) :
    t.Registers (t.ensureSegments rootId segments).tree segments ids := by
  have edits := edits_ensureSegments segments t rootId
  have w' := w.edits edits
  have ext := Extends.of_edits edits
  have chain := w.chain_of_ensureSegments h
  refine ⟨chain.length_eq.symm, chain.isChain w', chain.map_spelling, fun i hi => ?_, ext.size_le,
    w.filter_ensureSegments h⟩
  refine ⟨childless?_ensureSegments rootId segments hi, ext.ancestry_eq hi, ?_⟩
  rw [w'.routeOf_eq (Nat.lt_of_lt_of_le hi ext.size_le), w.routeOf_eq hi, ext.segmentsTo_eq hi]

end CommandTree

namespace Dispatcher
variable {m : Type → Type} {d : Dispatcher m} {route : String} {segments : List Segment}
  {ids : List ItemId}

/-- A route that is registered has its items and nothing else is new; all older items and all
callbacks are what they were; and registering the route again finds the same items. -/
theorem Reachable.registration_appends (h : d.Reachable)
    (hread : Route.read route = .ok segments) (hids : (d.tree.ensureRoute route).result = .ok ids) :
    let d' := (d.perform (.change (.routeItems route))).2
    let unslashed := String.ofList (Route.body route)
    d.tree.Registers d'.tree segments ids ∧
    (∀ i, d'.callbacksOf i = d.callbacksOf i) ∧
    ∀ again ∈ [route, unslashed, "/" ++ unslashed],
      d'.tree.ensureRoute again = ⟨d'.tree, .ok ids⟩ ∧
      (d'.perform (.change (.routeItems again))).2 = d' := by
  intro d' unslashed
  have w := h.tree.wellFormed
  have htree : d'.tree = (d.tree.ensureSegments CommandTree.rootId segments).tree :=
    congrArg Grown.tree (d.tree.ensureRoute_of_read hread)
  rw [d.tree.ensureRoute_of_read hread] at hids
  refine ⟨htree ▸ w.registers_ensureSegments hids, fun i => rfl, ?_⟩
  intro again hagain
  have hbody : Route.body again = Route.body route := by
    have hunslashed : Route.body unslashed = Route.body route := Route.body_ofList_body hread
    simp only [List.mem_cons, List.not_mem_nil, or_false] at hagain
    obtain rfl | rfl | rfl := hagain
    · rfl
    · exact hunslashed
    · simp [Route.body, unslashed]
  have hsame : d'.tree.ensureRoute again = ⟨d'.tree, .ok ids⟩ := by
    have named := (Route.registrable_of_read hread).named
    have w' := w.edits (CommandTree.edits_ensureSegments segments d.tree CommandTree.rootId)
    rw [d'.tree.ensureRoute_of_read (Route.read_of_body_eq_body hread hbody), htree]
    exact (w.chain_of_ensureSegments hids).ensureSegments w' named
  refine ⟨hsame, ?_⟩
  have htree' : (d'.tree.ensureRoute again).tree = d'.tree := by rw [hsame]
  exact congrArg (fun tree => { d' with tree }) htree'

/-- The first item stands already and has an alias; the other two are new. -/
theorem registration_appends_below_alias :
    let d := ((({} : Dispatcher Id).perform (.on "/remove" (.proceed none))).2.perform
      (.change (.giveAlias 1 "rm"))).2
    let segments : List Segment := [.static "remove", .dynamic "name", .switch [⟨"force", none⟩]]
    let d' := (d.perform (.change (.routeItems "/remove/:name[force]"))).2
    d.Reachable ∧ d.tree.size = 2 ∧ d.tree.Registers d'.tree segments [1, 2, 3] ∧
      d'.tree.ensureRoute "remove/:name[force]" = ⟨d'.tree, .ok [1, 2, 3]⟩ := by
  intro d segments d'
  have reached : d.Reachable := ((Reachable.empty {}).perform _).perform _
  have hread : Route.read "/remove/:name[force]" = .ok segments := by decide +kernel
  have hids : (d.tree.ensureRoute "/remove/:name[force]").result = .ok [1, 2, 3] := by
    decide +kernel
  obtain ⟨hregisters, _, hagain⟩ := reached.registration_appends hread hids
  exact ⟨reached, by decide +kernel, hregisters, (hagain _ (by decide +kernel)).1⟩

end Dispatcher
end CommandRoutes
