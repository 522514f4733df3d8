import CommandRoutes.Proofs.Registration
import CommandRoutes.Proofs.Route.Reading

/-!
# Failed calls leave everything alone

A call that fails leaves the tree as it was. For a route of several segments
this holds although its segments are registered one by one: a conflict needs a
branch that holds something already, the branch of an item attached during the
call is empty, and the segments of a route can always be registered below an
empty branch.
-/
namespace CommandRoutes.CommandTree

variable {t : CommandTree} {parent : ItemId}

/-- Nothing stands in a segment's way where there is nothing. -/
theorem hasRoom_of_empty (hb : t.branch? parent = some {}) (s : Segment) : s.HasRoom t parent := by
  have hocc : ∀ slot, t.occupants parent slot = [] := fun slot => by
    simp [occupants, hb, Branch.occupants_empty]
  cases s with
  | static name => exact ⟨hocc _, by simp [aliased?, hb]⟩
  | dynamic name => exact hocc _
  | spread name => exact hocc _
  | switch predicates => simp [Segment.HasRoom, hocc]

/-- The item just attached has an empty branch unless its segment ends the route. -/
theorem branch?_size_attachSegment {b : Branch} {s : Segment} (hb : t.branch? parent = some b)
    (h : s.endsRoute = false) : (t.attachSegment parent s).tree.branch? t.size = some {} := by
  rw [branch?_attachSegment hb, if_pos rfl, Segment.branch?_kind h]

theorem ensureSegments_cons_ok {s : Segment} {rest : List Segment} {id : ItemId}
    (h : (t.ensureSegment parent s).result = .ok id) :
    t.ensureSegments parent (s :: rest) =
      (((t.ensureSegment parent s).tree.ensureSegments id rest).map (id :: ·)) := by
  simp only [ensureSegments, Grown.andThen, h]

theorem ensureSegments_cons_of_hasRoom {b : Branch} {s : Segment} {rest : List Segment}
    (hb : t.branch? parent = some b) (named : s.WellNamed) (room : s.HasRoom t parent) :
    t.ensureSegments parent (s :: rest) =
      ((t.attachSegment parent s).tree.ensureSegments t.size rest).map (t.size :: ·) := by
  rw [ensureSegments, ensureSegment_of_hasRoom hb named room]
  rfl

/-- Where the first segment has room the segments of a route are registered without fail. -/
theorem ensureSegments_of_hasRoom {b : Branch} {s : Segment} {rest : List Segment}
    (ready : Route.Registrable (s :: rest)) (hb : t.branch? parent = some b)
    (room : s.HasRoom t parent) :
    ∃ ids, (t.ensureSegments parent (s :: rest)).result = .ok ids := by
  rw [ensureSegments_cons_of_hasRoom hb ready.head room]
  induction rest generalizing t parent b s with
  | nil => exact ⟨[t.size], rfl⟩
  | cons next rest ih =>
      -- only the last segment may end the route, so the new item has a branch
      have hopen : s.endsRoute = false := by
        by_contra hends
        exact List.cons_ne_nil next rest (ready.rest_eq_nil (by simpa using hends))
      have hnew := branch?_size_attachSegment hb hopen
      have hroom := hasRoom_of_empty hnew next
      obtain ⟨ids, hids⟩ := ih ready.tail hnew hroom
      rw [ensureSegments_cons_of_hasRoom hnew ready.tail.head hroom]
      exact ⟨t.size :: ids, by rw [Grown.map, hids]; rfl⟩

/-- Segments that cannot all be registered are not registered in part. -/
theorem tree_ensureSegments_of_error {segments : List Segment}
    (ready : Route.Registrable segments) {e : Fault}
    (h : (t.ensureSegments parent segments).result = .error e) :
    (t.ensureSegments parent segments).tree = t := by
  induction segments generalizing parent with
  | nil => cases h
  | cons s rest ih =>
      have step := t.ensured_ensureSegment parent s
      generalize hg : t.ensureSegment parent s = g at step
      cases step with
      | refused e' => simp [ensureSegments, Grown.andThen, hg]
      | @reused id _ _ =>
          have hok : (t.ensureSegment parent s).result = .ok id := by rw [hg]
          rw [ensureSegments_cons_ok hok, hg] at h ⊢
          exact ih ready.tail (Grown.result_map_eq_error.mp h)
      | attached hb _ room =>
          obtain ⟨ids, hids⟩ := ensureSegments_of_hasRoom ready hb room
          rw [hids] at h
          cases h

theorem tree_ensureRoute_of_error {route : String} {e : Fault}
    (h : (t.ensureRoute route).result = .error e) : (t.ensureRoute route).tree = t := by
  unfold ensureRoute at h ⊢
  cases hread : Route.read route with
  | error e' => rfl
  | ok segments =>
      rw [hread] at h
      exact tree_ensureSegments_of_error (Route.registrable_of_read hread) h

theorem Ensured.tree_of_error {s : Segment} {g : Grown ItemId} (step : Ensured t parent s g)
    {e : Fault} (h : g.result = .error e) : g.tree = t := by
  cases step with
  | refused e' => rfl
  | reused _ _ => cases h
  | attached _ _ _ => cases h

theorem tree_giveAlias_of_error {id : ItemId} {aliasName : String} {e : Fault}
    (h : (t.giveAlias id aliasName).result = .error e) : (t.giveAlias id aliasName).tree = t := by
  obtain ⟨e', heq⟩ | heq | ⟨_, heq⟩ := t.giveAlias_cases id aliasName
  · rw [heq]
  · rw [heq]
  · rw [heq] at h
    cases h

theorem tree_declareCommon_of_error {id : ItemId} {isRequired : Bool} {switch : Switch}
    {e : Fault}
    (h : (t.declareCommon id switch (Branch.declare isRequired switch)).result = .error e) :
    (t.declareCommon id switch (Branch.declare isRequired switch)).tree = t := by
  obtain ⟨e', heq⟩ | ⟨_, heq⟩ := t.declareCommon_cases id isRequired switch
  · rw [heq]
  · rw [heq] at h
    cases h

theorem tree_perform_of_error {c : Change} {e : Fault} (h : (t.perform c).result = .error e) :
    (t.perform c).tree = t := by
  cases c with
  | route text =>
      exact tree_ensureRoute_of_error
        (Grown.result_map_eq_error.mp (Grown.result_map_eq_error.mp h))
  | routeItems text => exact tree_ensureRoute_of_error (Grown.result_map_eq_error.mp h)
  | segment parent s =>
      exact (t.ensured_ensureSegment parent s).tree_of_error (Grown.result_map_eq_error.mp h)
  | static parent name =>
      exact (t.ensured_ensureStatic parent name).tree_of_error (Grown.result_map_eq_error.mp h)
  | dynamic parent name =>
      exact (t.ensured_ensureDynamic parent name).tree_of_error (Grown.result_map_eq_error.mp h)
  | spread parent name =>
      exact (t.ensured_ensureSpread parent name).tree_of_error (Grown.result_map_eq_error.mp h)
  | switchItem parent predicates =>
      exact (t.ensured_ensureSwitchItem parent predicates).tree_of_error
        (Grown.result_map_eq_error.mp h)
  | giveAlias id aliasName => exact tree_giveAlias_of_error h
  | commonRequired id switch =>
      have hcommon : (t.declareCommon id switch (Branch.declare true switch)).result = .error e := h
      exact tree_declareCommon_of_error hcommon
  | commonOptional id switch =>
      have hcommon :
          (t.declareCommon id switch (Branch.declare false switch)).result = .error e := h
      exact tree_declareCommon_of_error hcommon
  | required id switch => cases h
  | optional id switch => cases h
  | description id text => cases h
  | privacy id isPrivate => cases h

end CommandRoutes.CommandTree

namespace CommandRoutes.Dispatcher

/-- A call that fails leaves the dispatcher as it was: its tree, its callbacks and all else. -/
theorem perform_of_error {m : Type → Type} {d : Dispatcher m} {c : Call m} {e : Fault}
    (h : (d.perform c).1 = .error e) : (d.perform c).2 = d := by
  cases c with
  | change c => exact congrArg (fun tree => { d with tree }) (CommandTree.tree_perform_of_error h)
  | on route callback =>
      obtain ⟨e', hleaf, heq⟩ | ⟨item, _, heq⟩ := d.register_cases route callback
      · have htree := CommandTree.tree_ensureRoute_of_error (Grown.result_map_eq_error.mp hleaf)
        change (d.register route callback).2 = d
        rw [heq]
        exact congrArg (fun tree => { d with tree }) htree
      · simp only [perform, heq] at h
        cases h
  | bind item callback => cases h
  | hook hook => cases h

/-- The first segment of the route is there already, the second is in conflict. -/
theorem perform_of_error_second_dynamic :
    let d : Dispatcher Id := (({} : Dispatcher Id).perform (.on "/deploy/:env" (.proceed none))).2
    let c : Call Id := .on "/deploy/:stage/run" (.proceed none)
    (d.perform c).1 = .error (.secondDynamic (d.tree.routeOf 1) "env" "stage") ∧
      (d.perform c).2 = d := by
  intro d c
  have failed : (d.perform c).1 = .error (.secondDynamic (d.tree.routeOf 1) "env" "stage") := rfl
  exact ⟨failed, perform_of_error failed⟩

end CommandRoutes.Dispatcher
