import CommandRoutes.Proofs.Tree.Ensuring
import CommandRoutes.Proofs.Route.Printing

/-!
# Trees grown by routes

Where all items come from routes every item stands for a segment that some route
can be read as. The item at the end of a registered route stands for its last
segment. A switch item that was there before is used again where its predicates
are written like those of the route. Predicates written alike are the same when
none of them has a single quote in a quoted literal, and may differ otherwise.
-/
namespace CommandRoutes
namespace CommandTree

/-- The call adds items only as a route asks for them. -/
def Change.ByRoute : Change → Prop
  | .segment .. | .static .. | .dynamic .. | .spread .. | .switchItem .. => False
  | _ => True

/-- The trees that routes lead to, with any other calls that add no items. -/
inductive Routed : CommandTree → Prop
  | new : Routed .new
  | perform {t : CommandTree} {c : Change} : c.ByRoute → Routed t → Routed (t.perform c).tree

/-- Every item stands for a segment that some route can be read as. -/
def Legible (t : CommandTree) : Prop := ∀ id s, t.segment? id = some s → s.Readable

theorem Routed.reachable {t : CommandTree} (h : t.Routed) : t.Reachable := by
  induction h with
  | new => exact .new
  | perform _ _ ih => exact ih.perform _

namespace Legible
variable {t : CommandTree} (l : t.Legible)
include l

theorem of_segment?_eq {t' : CommandTree} (h : ∀ i, t'.segment? i = t.segment? i) :
    t'.Legible := fun id s hs => l id s ((h id).symm.trans hs)

theorem of_outline_eq {t' : CommandTree} (h : t'.outline = t.outline) : t'.Legible := by
  refine l.of_segment?_eq fun i => ?_
  rw [← segment?_outline, h, segment?_outline]

theorem ensureSegment (parent : ItemId) {s : Segment} (hs : s.Readable) :
    (t.ensureSegment parent s).tree.Legible := by
  have ensured := t.ensured_ensureSegment parent s
  generalize t.ensureSegment parent s = g at ensured
  cases ensured with
  | refused e => exact l
  | reused _ _ => exact l
  | attached hb _ _ =>
      intro id s' hs'
      rw [segment?_attachSegment hb] at hs'
      split_ifs at hs'
      · cases hs'
        exact hs
      · exact l id s' hs'

theorem ensureSegments {parent : ItemId} {segments : List Segment}
    (readable : ∀ s ∈ segments, s.Readable) : (t.ensureSegments parent segments).tree.Legible := by
  induction segments generalizing t parent with
  | nil => exact l
  | cons s rest ih =>
      obtain ⟨hs, hrest⟩ := List.forall_mem_cons.mp readable
      have hfirst := l.ensureSegment parent hs
      unfold CommandTree.ensureSegments Grown.andThen
      cases (t.ensureSegment parent s).result with
      | error e => exact hfirst
      | ok id => exact ih hfirst hrest

theorem ensureRoute (route : String) : (t.ensureRoute route).tree.Legible := by
  unfold CommandTree.ensureRoute
  cases hread : Route.read route with
  | error e => exact l
  | ok segments => exact l.ensureSegments (Route.readable_of_read hread)

theorem declareCommon (id : ItemId) (isRequired : Bool) (switch : Switch) :
    (t.declareCommon id switch (Branch.declare isRequired switch)).tree.Legible := by
  obtain ⟨e, h⟩ | ⟨_, h⟩ := t.declareCommon_cases id isRequired switch
  · rw [h]
    exact l
  · rw [h]
    exact l.of_outline_eq (outline_enterCommon ..)

theorem perform {c : Change} (hc : c.ByRoute) : (t.perform c).tree.Legible := by
  have annotated : ∀ {id : ItemId} {f : PathItem → PathItem},
      (∀ item, (f item).name = item.name ∧ (f item).parent = item.parent ∧
        (f item).kind = item.kind) → (t.modify id f).Legible :=
    fun keeps => l.of_outline_eq (outline_annotate keeps)
  cases c with
  | route text => exact l.ensureRoute text
  | routeItems text => exact l.ensureRoute text
  | segment parent s => exact hc.elim
  | static parent name => exact hc.elim
  | dynamic parent name => exact hc.elim
  | spread parent name => exact hc.elim
  | switchItem parent predicates => exact hc.elim
  | giveAlias id aliasName =>
      change (t.giveAlias id aliasName).tree.Legible
      obtain ⟨e, h⟩ | h | ⟨_, h⟩ := t.giveAlias_cases id aliasName
      · rw [h]
        exact l
      · rw [h]
        exact l
      · rw [h]
        exact l.of_segment?_eq segment?_enterAlias
  | required id switch => exact annotated fun _ => ⟨rfl, rfl, rfl⟩
  | optional id switch => exact annotated fun _ => ⟨rfl, rfl, rfl⟩
  | commonRequired id switch => exact l.declareCommon id true switch
  | commonOptional id switch => exact l.declareCommon id false switch
  | description id text => exact annotated fun _ => ⟨rfl, rfl, rfl⟩
  | privacy id isPrivate => exact annotated fun _ => ⟨rfl, rfl, rfl⟩

end Legible

theorem legible_new : CommandTree.new.Legible := by
  intro id s h
  cases id <;> cases h

theorem Routed.legible {t : CommandTree} (h : t.Routed) : t.Legible := by
  induction h with
  | new => exact legible_new
  | perform hc _ ih => exact ih.perform hc

/-! ## The item at the end of a route -/

section
variable (t : CommandTree) {route : String} {segments : List Segment}
  (hread : Route.read route = .ok segments)
include hread

theorem tree_ensureLeaf :
    (t.ensureLeaf route).tree = (t.ensureSegments rootId segments).tree := by
  rw [ensureLeaf, t.ensureRoute_of_read hread]
  rfl

theorem ensureLeaf_eq_ok {id : ItemId} :
    (t.ensureLeaf route).result = .ok id ↔
      ∃ ids, (t.ensureSegments rootId segments).result = .ok ids ∧
        ids.getLast?.getD rootId = id := by
  rw [ensureLeaf, t.ensureRoute_of_read hread]
  simp only [Grown.map]
  cases (t.ensureSegments rootId segments).result <;> simp [Except.map]

end

/-- What registering a route that ends in a switch segment leaves behind: an item whose predicates
are written like those of the route. They are those of the route when the item is new, and also when
no quoted literal on either side holds a single quote. -/
theorem Routed.predicates?_ensureLeaf {t : CommandTree} (h : t.Routed) {route : String}
    {segments : List Segment} {predicates : List Predicate} {id : ItemId}
    (hread : Route.read route = .ok segments)
    (hlast : segments.getLast? = some (.switch predicates))
    (hid : (t.ensureLeaf route).result = .ok id) :
    ∃ stored, (t.ensureLeaf route).tree.predicates? id = some stored ∧
      Predicate.renderAll stored = Predicate.renderAll predicates ∧
      ((∀ p ∈ stored, p.Plain) → (∀ p ∈ predicates, p.Plain) → stored = predicates) ∧
      (t.size ≤ id → stored = predicates) := by
  have w := h.reachable.wellFormed
  obtain ⟨ids, hids, rfl⟩ := (t.ensureLeaf_eq_ok hread).mp hid
  obtain ⟨before, rfl⟩ := List.getLast?_eq_some_iff.mp hlast
  have legible := h.legible.ensureRoute route
  have chain := w.chain_of_ensureSegments hids
  change (t.ensureLeaf route).tree.Legible at legible
  rw [t.tree_ensureLeaf hread] at legible ⊢
  obtain ⟨upper, lower, rfl, hupper, hlower⟩ := chain.of_append
  cases hlower with
  | @cons _ last _ _ _ stands rest =>
      cases rest
      obtain ⟨s, hs, hstep⟩ := Option.map_eq_some_iff.mp stands.2
      obtain ⟨stored, rfl⟩ := Segment.slot_eq_switchItem.mp (congrArg Step.slot hstep)
      have hwritten : Predicate.renderAll stored = Predicate.renderAll predicates :=
        congrArg Step.name hstep
      have hreadable := (Route.readable_of_read hread (.switch predicates) (by simp)).2
      rw [List.getLast?_concat, Option.getD_some]
      refine ⟨stored, segment?_eq_switch.mp hs, hwritten, fun plain plain' => ?_, fun new => ?_⟩
      · exact Predicate.eq_of_renderAll_eq (legible last _ hs).2 hreadable plain plain' hwritten
      · have hmem : (Segment.switch predicates, last) ∈
            (before ++ [Segment.switch predicates]).zip (upper ++ [last]) := by
          rw [List.zip_append hupper.length_eq]
          simp
        cases hs.symm.trans (w.segment?_of_ensureSegments hids hmem new)
        rfl

/-- The route asks for one predicate more than the item that stands, and a new item is made. -/
theorem predicates?_ensureLeaf_two_groups :
    let t := (CommandTree.new.perform (.route "x[a='x']")).tree
    let predicates : List Predicate := [⟨"a", some (.quoted "x")⟩, ⟨"b", none⟩]
    t.Routed ∧ (t.ensureLeaf "x[a='x'][b]").result = .ok 3 ∧
      (t.ensureLeaf "x[a='x'][b]").tree.predicates? 3 = some predicates := by
  intro t predicates
  have routed : t.Routed := .perform trivial .new
  have hid : (t.ensureLeaf "x[a='x'][b]").result = .ok 3 := by decide +kernel
  have hread : Route.read "x[a='x'][b]" = .ok [.static "x", .switch predicates] := by decide +kernel
  obtain ⟨stored, hstored, _, _, hnew⟩ := routed.predicates?_ensureLeaf hread rfl hid
  exact ⟨routed, hid, hnew (by decide +kernel) ▸ hstored⟩

/-- Two predicates and one predicate with single quotes in its literal are written alike, and the
item of the first is answered for the second. -/
theorem ensureLeaf_answers_other_predicates :
    let t := (CommandTree.new.perform (.route "x[a='x'][b='y']")).tree
    let route := "x[a=\"x'][b='y\"]"
    let stored : List Predicate := [⟨"a", some (.quoted "x")⟩, ⟨"b", some (.quoted "y")⟩]
    let predicates : List Predicate := [⟨"a", some (.quoted "x'][b='y")⟩]
    t.Routed ∧ Route.read route = .ok [.static "x", .switch predicates] ∧
      (t.ensureLeaf route).result = .ok 2 ∧
      (t.ensureLeaf route).tree.predicates? 2 = some stored ∧ stored ≠ predicates := by
  intro t route stored predicates
  have routed : t.Routed := .perform trivial .new
  exact ⟨routed, by decide +kernel, by decide +kernel, by decide +kernel, by decide⟩

end CommandTree
end CommandRoutes
