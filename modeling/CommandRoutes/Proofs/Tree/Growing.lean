import CommandRoutes.Proofs.Tree.Edit
import Mathlib.Logic.Relation

/-!
# What the growing functions do

A growing function leaves the tree alone and fails, leaves it alone and answers
with an item that was there, or makes exactly one edit. A route is a series of
such steps. The reachable trees are those that any calls lead to from the tree
of the root alone; calls that fail are among them, and so are numbers that the
tree never gave out. What holds of the new tree and survives each edit holds of
every reachable tree.
-/
namespace CommandRoutes

theorem Grown.map_id {α : Type} (g : Grown α) : g.map id = g := by
  obtain ⟨tree, result⟩ := g
  cases result <;> rfl

theorem Grown.map_map {α β γ : Type} (f : α → β) (f' : β → γ) (g : Grown α) :
    (g.map f).map f' = g.map (f' ∘ f) := by
  obtain ⟨tree, result⟩ := g
  cases result <;> rfl

theorem Grown.result_map_eq_error {α β : Type} {f : α → β} {g : Grown α} {e : Fault} :
    (g.map f).result = .error e ↔ g.result = .error e := by
  unfold Grown.map
  cases g.result <;> simp [Except.map]

namespace CommandTree

theorem branchOf_eq_ok {t : CommandTree} {id : ItemId} {b : Branch} :
    t.branchOf id = .ok b ↔ t.branch? id = some b := by
  unfold branchOf
  cases t.branch? id <;> simp

theorem branchOf_eq_error {t : CommandTree} {id : ItemId} {e : Fault} :
    t.branchOf id = .error e ↔ t.branch? id = none ∧ e = .noBranch (t.routeOf id) := by
  unfold branchOf
  cases t.branch? id <;> simp [eq_comm]

/-- What registering a segment below `parent` may come to. -/
inductive Ensured (t : CommandTree) (parent : ItemId) (s : Segment) : Grown ItemId → Prop
  | refused (e : Fault) : Ensured t parent s ⟨t, .error e⟩
  | reused {id : ItemId} : id ∈ t.occupants parent s.slot →
      (s.slot = .static s.label ∨ t.name id = s.label) → Ensured t parent s ⟨t, .ok id⟩
  | attached {b : Branch} : t.branch? parent = some b → s.WellNamed → s.HasRoom t parent →
      Ensured t parent s (t.attachSegment parent s)

section
variable (t : CommandTree) (parent : ItemId)

theorem ensured_ensureStatic (name : String) :
    Ensured t parent (.static name) (t.ensureStatic parent name) := by
  unfold ensureStatic
  cases hname : checkName name with
  | error e => exact .refused e
  | ok _ =>
      cases hb : t.branchOf parent with
      | error e => exact .refused e
      | ok b =>
          rw [branchOf_eq_ok] at hb
          dsimp only
          cases hs : b.statics.get? name with
          | some existing =>
              exact .reused (by simp [occupants, hb, Branch.occupants, Segment.slot, hs]) (.inl rfl)
          | none =>
              dsimp only
              split_ifs with ha
              · exact .refused _
              · have room : Segment.HasRoom (.static name) t parent :=
                  ⟨by simp [occupants, hb, Branch.occupants, hs],
                    by simpa [aliased?, hb, NameMap.contains] using ha⟩
                exact .attached hb hname room

theorem ensured_ensureDynamic (name : String) :
    Ensured t parent (.dynamic name) (t.ensureDynamic parent name) := by
  unfold ensureDynamic
  cases hname : checkName name with
  | error e => exact .refused e
  | ok _ =>
      cases hb : t.branchOf parent with
      | error e => exact .refused e
      | ok b =>
          rw [branchOf_eq_ok] at hb
          dsimp only
          cases hd : b.dynamic with
          | some existing =>
              dsimp only
              split_ifs with hsame
              · exact .reused (by simp [occupants, hb, Branch.occupants, Segment.slot, hd])
                  (.inr hsame)
              · exact .refused _
          | none =>
              exact .attached hb hname
                (by simp [Segment.HasRoom, occupants, hb, Branch.occupants, hd])

theorem ensured_ensureSpread (name : String) :
    Ensured t parent (.spread name) (t.ensureSpread parent name) := by
  unfold ensureSpread
  cases hname : checkName name with
  | error e => exact .refused e
  | ok _ =>
      cases hb : t.branchOf parent with
      | error e => exact .refused e
      | ok b =>
          rw [branchOf_eq_ok] at hb
          dsimp only
          cases hs : b.spread with
          | some existing =>
              dsimp only
              split_ifs with hsame
              · exact .reused (by simp [occupants, hb, Branch.occupants, Segment.slot, hs])
                  (.inr hsame)
              · exact .refused _
          | none =>
              exact .attached hb hname
                (by simp [Segment.HasRoom, occupants, hb, Branch.occupants, hs])

theorem ensured_ensureSwitchItem (predicates : List Predicate) :
    Ensured t parent (.switch predicates) (t.ensureSwitchItem parent predicates) := by
  unfold ensureSwitchItem
  cases hb : t.branchOf parent with
  | error e => exact .refused e
  | ok b =>
      rw [branchOf_eq_ok] at hb
      have hocc : t.occupants parent .switchItem = b.switchItems := by
        simp [occupants, hb, Branch.occupants]
      dsimp only
      cases hf : b.switchItems.find? fun id => t.name id = Predicate.renderAll predicates with
      | some existing =>
          have hname := List.find?_some hf
          exact .reused (hocc ▸ List.mem_of_find?_eq_some hf) (.inr (of_decide_eq_true hname))
      | none =>
          refine .attached hb trivial fun id hid => ?_
          simpa using List.find?_eq_none.mp hf id (hocc ▸ hid)

theorem ensured_ensureSegment (s : Segment) :
    Ensured t parent s (t.ensureSegment parent s) := by
  cases s with
  | static name => exact t.ensured_ensureStatic parent name
  | dynamic name => exact t.ensured_ensureDynamic parent name
  | spread name => exact t.ensured_ensureSpread parent name
  | switch predicates => exact t.ensured_ensureSwitchItem parent predicates

end

/-- A segment with room for it and a proper name is never refused. -/
theorem ensureSegment_of_hasRoom {t : CommandTree} {parent : ItemId} {b : Branch} {s : Segment}
    (hb : t.branch? parent = some b) (named : s.WellNamed) (room : s.HasRoom t parent) :
    t.ensureSegment parent s = t.attachSegment parent s := by
  have hok := branchOf_eq_ok.mpr hb
  cases s with
  | static name =>
      have hs : b.statics.get? name = none := by
        simpa [occupants, hb, Branch.occupants] using room.1
      have ha : b.aliases.contains name = false := by
        simpa [aliased?, hb, NameMap.contains] using room.2
      simp only [ensureSegment, ensureStatic, show checkName name = .ok () from named, hok, hs, ha]
      rfl
  | dynamic name =>
      have hd : b.dynamic = none := by
        simpa [Segment.HasRoom, occupants, hb, Branch.occupants] using room
      simp only [ensureSegment, ensureDynamic, show checkName name = .ok () from named, hok, hd]
      rfl
  | spread name =>
      have hs : b.spread = none := by
        simpa [Segment.HasRoom, occupants, hb, Branch.occupants] using room
      simp only [ensureSegment, ensureSpread, show checkName name = .ok () from named, hok, hs]
      rfl
  | switch predicates =>
      have hf : b.switchItems.find? (fun id => t.name id = Predicate.renderAll predicates) =
          none := by
        simpa [Segment.HasRoom, occupants, hb, Branch.occupants] using room
      simp only [ensureSegment, ensureSwitchItem, hok, hf]
      rfl

/-- An alias is refused, is there already, or is entered. -/
theorem giveAlias_cases (t : CommandTree) (id : ItemId) (aliasName : String) :
    (∃ e, t.giveAlias id aliasName = ⟨t, .error e⟩) ∨
    t.giveAlias id aliasName = ⟨t, .ok ()⟩ ∨
    Edit t (t.enterAlias ((t.parent? id).getD rootId) id aliasName) ∧
      t.giveAlias id aliasName =
        ⟨t.enterAlias ((t.parent? id).getD rootId) id aliasName, .ok ()⟩ := by
  unfold giveAlias
  cases hname : checkName aliasName with
  | error e => exact .inl ⟨e, rfl⟩
  | ok _ =>
      dsimp only
      split
      · next name parent aliases branch description isPrivate required optional hitem =>
        have hparent : t.parent? id = some parent := by simp [parent?, hitem]
        have hslot : t.slot? id = some (.static name) := by simp [slot?, hitem, PathItem.slot?]
        cases hb : t.branchOf parent with
        | error e => exact .inl ⟨e, rfl⟩
        | ok b =>
            rw [branchOf_eq_ok] at hb
            dsimp only
            cases hc : b.literalChild? aliasName with
            | some existing =>
                dsimp only
                split_ifs
                · exact .inr (.inl rfl)
                · exact .inl ⟨_, rfl⟩
            | none =>
                obtain ⟨hs, ha⟩ := Option.or_eq_none_iff.mp hc
                rw [hparent]
                refine .inr (.inr ⟨?_, rfl⟩)
                exact .giveAlias hparent hslot hb hname
                  (by simp [occupants, hb, Branch.occupants, hs]) (by simp [aliased?, hb, ha])
      · exact .inl ⟨_, rfl⟩

/-- A common switch is refused, or entered when none of its names is taken. -/
theorem declareCommon_cases (t : CommandTree) (id : ItemId) (isRequired : Bool)
    (switch : Switch) :
    (∃ e, t.declareCommon id switch (Branch.declare isRequired switch) = ⟨t, .error e⟩) ∨
    Edit t (t.enterCommon id isRequired switch) ∧
      t.declareCommon id switch (Branch.declare isRequired switch) =
        ⟨t.enterCommon id isRequired switch, .ok ()⟩ := by
  unfold declareCommon
  cases hb : t.branchOf id with
  | error e => exact .inl ⟨e, rfl⟩
  | ok b =>
      rw [branchOf_eq_ok] at hb
      dsimp only
      cases hf : switch.names.find? (t.takenNames id b).contains with
      | some name => exact .inl ⟨_, rfl⟩
      | none =>
          refine .inr ⟨.common hb fun name hname htaken => ?_, rfl⟩
          exact List.find?_eq_none.mp hf name hname (List.contains_iff_mem.mpr htaken)

/-! ## Calls -/

/-- The calls that may change a tree. Binding callbacks is not among them, for they are kept
beside the tree. -/
inductive Change
  | route (text : String)
  | routeItems (text : String)
  | segment (parent : ItemId) (s : Segment)
  | static (parent : ItemId) (name : String)
  | dynamic (parent : ItemId) (name : String)
  | spread (parent : ItemId) (name : String)
  | switchItem (parent : ItemId) (predicates : List Predicate)
  | giveAlias (id : ItemId) (aliasName : String)
  | required (id : ItemId) (switch : Switch)
  | optional (id : ItemId) (switch : Switch)
  | commonRequired (id : ItemId) (switch : Switch)
  | commonOptional (id : ItemId) (switch : Switch)
  | description (id : ItemId) (text : String)
  | privacy (id : ItemId) (isPrivate : Bool)

/-- Makes a call; its answer is kept as far as it says whether the call failed. -/
def perform (t : CommandTree) : Change → Grown Unit
  | .route text => (t.ensureLeaf text).map fun _ => ()
  | .routeItems text => (t.ensureRoute text).map fun _ => ()
  | .segment parent s => (t.ensureSegment parent s).map fun _ => ()
  | .static parent name => (t.ensureStatic parent name).map fun _ => ()
  | .dynamic parent name => (t.ensureDynamic parent name).map fun _ => ()
  | .spread parent name => (t.ensureSpread parent name).map fun _ => ()
  | .switchItem parent predicates => (t.ensureSwitchItem parent predicates).map fun _ => ()
  | .giveAlias id aliasName => t.giveAlias id aliasName
  | .required id switch => ⟨t.declareRequired id switch, .ok ()⟩
  | .optional id switch => ⟨t.declareOptional id switch, .ok ()⟩
  | .commonRequired id switch => t.declareCommonRequired id switch
  | .commonOptional id switch => t.declareCommonOptional id switch
  | .description id text => ⟨t.setDescription id text, .ok ()⟩
  | .privacy id isPrivate => ⟨t.setPrivate id isPrivate, .ok ()⟩

/-- Makes calls one after the other, whether they fail or not. -/
def performAll (t : CommandTree) (changes : List Change) : CommandTree :=
  changes.foldl (fun t c => (t.perform c).tree) t

/-- The trees that calls lead to from the tree of the root alone. -/
inductive Reachable : CommandTree → Prop
  | new : Reachable .new
  | perform {t : CommandTree} (c : Change) : Reachable t → Reachable (t.perform c).tree

abbrev Edits : CommandTree → CommandTree → Prop := Relation.ReflTransGen Edit

theorem Ensured.edits {t : CommandTree} {parent : ItemId} {s : Segment} {g : Grown ItemId}
    (h : Ensured t parent s g) : Edits t g.tree := by
  cases h with
  | refused e => exact .refl
  | reused _ _ => exact .refl
  | attached hb named room => exact .single (.attach hb named room)

theorem edits_ensureSegments (segments : List Segment) (t : CommandTree) (parent : ItemId) :
    Edits t (t.ensureSegments parent segments).tree := by
  induction segments generalizing t parent with
  | nil => exact .refl
  | cons s rest ih =>
      have step := (t.ensured_ensureSegment parent s).edits
      unfold ensureSegments Grown.andThen
      cases (t.ensureSegment parent s).result with
      | error e => exact step
      | ok id => exact step.trans (ih _ _)

theorem ensureRoute_of_read (t : CommandTree) {route : String} {segments : List Segment}
    (h : Route.read route = .ok segments) :
    t.ensureRoute route = t.ensureSegments rootId segments := by
  rw [ensureRoute, h]

theorem edits_ensureRoute (t : CommandTree) (route : String) :
    Edits t (t.ensureRoute route).tree := by
  unfold ensureRoute
  cases Route.read route with
  | error e => exact .refl
  | ok segments => exact edits_ensureSegments segments t rootId

theorem edits_giveAlias (t : CommandTree) (id : ItemId) (aliasName : String) :
    Edits t (t.giveAlias id aliasName).tree := by
  obtain ⟨e, h⟩ | h | ⟨edit, h⟩ := t.giveAlias_cases id aliasName <;> rw [h]
  exact .single edit

theorem edits_declareCommon (t : CommandTree) (id : ItemId) (isRequired : Bool)
    (switch : Switch) :
    Edits t (t.declareCommon id switch (Branch.declare isRequired switch)).tree := by
  obtain ⟨e, h⟩ | ⟨edit, h⟩ := t.declareCommon_cases id isRequired switch <;> rw [h]
  exact .single edit

/-- Every call is a series of edits. -/
theorem edits_perform (t : CommandTree) (c : Change) : Edits t (t.perform c).tree := by
  cases c with
  | route text => exact t.edits_ensureRoute text
  | routeItems text => exact t.edits_ensureRoute text
  | segment parent s => exact (t.ensured_ensureSegment parent s).edits
  | static parent name => exact (t.ensured_ensureStatic parent name).edits
  | dynamic parent name => exact (t.ensured_ensureDynamic parent name).edits
  | spread parent name => exact (t.ensured_ensureSpread parent name).edits
  | switchItem parent predicates => exact (t.ensured_ensureSwitchItem parent predicates).edits
  | giveAlias id aliasName => exact t.edits_giveAlias id aliasName
  | required id switch => exact .single (.annotate fun _ => ⟨rfl, rfl, rfl⟩)
  | optional id switch => exact .single (.annotate fun _ => ⟨rfl, rfl, rfl⟩)
  | commonRequired id switch => exact t.edits_declareCommon id true switch
  | commonOptional id switch => exact t.edits_declareCommon id false switch
  | description id text => exact .single (.annotate fun _ => ⟨rfl, rfl, rfl⟩)
  | privacy id isPrivate => exact .single (.annotate fun _ => ⟨rfl, rfl, rfl⟩)

theorem edits_performAll (changes : List Change) (t : CommandTree) :
    Edits t (t.performAll changes) := by
  induction changes generalizing t with
  | nil => exact .refl
  | cons c rest ih => exact (t.edits_perform c).trans (ih _)

theorem Reachable.performAll {t : CommandTree} (h : t.Reachable) (changes : List Change) :
    (t.performAll changes).Reachable := by
  induction changes generalizing t with
  | nil => exact h
  | cons c rest ih => exact ih (h.perform c)

/-- What the new tree fulfils and every edit keeps, every reachable tree fulfils. -/
theorem Reachable.invariant {P : CommandTree → Prop} (new : P .new)
    (edit : ∀ {t t' : CommandTree}, P t → Edit t t' → P t') {t : CommandTree}
    (h : t.Reachable) : P t := by
  induction h with
  | new => exact new
  | perform c _ ih =>
      generalize (CommandTree.perform _ c).tree = t', CommandTree.edits_perform _ c = edits
      induction edits with
      | refl => exact ih
      | tail _ step ih' => exact edit ih' step

end CommandTree
end CommandRoutes
