import CommandRoutes.Proofs.Table.Registering

/-!
# The order of the routes of a table

Trees that realize the same demands have items at the same addresses, and tokens
lead to items of one address in all of them. The demands of a table are the same
in whatever order its routes are listed, so that the order decides neither
whether the table can be registered nor what its commands lead to.
-/
namespace CommandRoutes

open Demand (Peaceful)

theorem none_or_some_of_forall {α β : Type} {o : Option α} {o' : Option β} {R : α → β → Prop}
    (h : ∀ a, o = some a → ∃ b, o' = some b ∧ R a b) (h' : ∀ b, o' = some b → ∃ a, o = some a) :
    (o = none ∧ o' = none) ∨ ∃ a b, o = some a ∧ o' = some b ∧ R a b := by
  cases o with
  | some a =>
      obtain ⟨b, hb, hab⟩ := h a rfl
      exact .inr ⟨a, b, rfl, hb, hab⟩
  | none =>
      cases o' with
      | none => exact .inl ⟨rfl, rfl⟩
      | some b =>
          obtain ⟨a, ha⟩ := h' b rfl
          cases ha

namespace CommandTree

/-- Items of two trees that have the same address. -/
structure Twins (t t' : CommandTree) (id id' : ItemId) : Prop where
  lt_size : id < t.size
  lt_size' : id' < t'.size
  address_eq : t'.address id' = t.address id

namespace Twins
variable {t t' : CommandTree} {p p' id id' : ItemId} (w : t.WellFormed) (w' : t'.WellFormed)

theorem symm (h : t.Twins t' id id') : t'.Twins t id' id :=
  ⟨h.lt_size', h.lt_size, h.address_eq.symm⟩

include w w'

theorem root : t.Twins t' rootId rootId :=
  ⟨w.rootId_lt_size, w'.rootId_lt_size, w'.address_rootId.trans w.address_rootId.symm⟩

/-- Children of twins by the same step are twins. -/
theorem child (h : t.Twins t' p p') {step : Step} (hp : t.parent? id = some p)
    (hp' : t'.parent? id' = some p') (hstep : t.step? id = some step)
    (hstep' : t'.step? id' = some step) : t.Twins t' id id' := by
  refine ⟨lt_size_of_parent? hp, lt_size_of_parent? hp', ?_⟩
  rw [w.address_of_parent? hp hstep, w'.address_of_parent? hp' hstep', h.address_eq]

theorem routeOf_eq (h : t.Twins t' id id') : t'.routeOf id' = t.routeOf id := by
  rw [w.routeOf_eq_spelling h.lt_size, w'.routeOf_eq_spelling h.lt_size', h.address_eq]

end Twins

namespace Realizes
variable {t t' : CommandTree} {ds : List Demand} (r : t.Realizes ds) (r' : t'.Realizes ds)
include r r'

theorem exists_twin {id : ItemId} (hid : id < t.size) : ∃ id', t.Twins t' id id' := by
  have w := r.wellFormed
  have w' := r'.wellFormed
  obtain ⟨rfl, -⟩ | ⟨p, step, hp, hstep, haddress⟩ := w.root_or_child hid
  · exact ⟨rootId, .root w w'⟩
  · obtain ⟨p', id', hp', habove, hstep'⟩ := r'.item_iff.mp (r.item_of_child hp hstep)
    have parents : t.Twins t' p p' := ⟨w.parent_lt_size hp, w'.parent_lt_size hp', habove⟩
    exact ⟨id', parents.child w w' hp hp' hstep hstep'⟩

section
variable {p p' : ItemId} (parents : t.Twins t' p p')
include parents

theorem exists_twin_occupant {slot : Slot} {c : ItemId} (hc : c ∈ t.occupants p slot) :
    ∃ c' ∈ t'.occupants p' slot, t.Twins t' c c' ∧ t'.name c' = t.name c := by
  have w := r.wellFormed
  have w' := r'.wellFormed
  obtain ⟨hparent, hslot⟩ := w.occupant hc
  have hstep : t.step? c = some ⟨slot, t.name c⟩ := w.step?_eq_some.mpr ⟨hslot, rfl⟩
  have hdemand := r.item_of_child hparent hstep
  obtain ⟨c', hparent', hstep'⟩ := r'.child_of_item parents.lt_size' (parents.address_eq ▸ hdemand)
  obtain ⟨hslot', hname⟩ := w'.step?_eq_some.mp hstep'
  exact ⟨c', w'.mem_occupants.mpr ⟨hparent', hslot'⟩,
    parents.child w w' hparent hparent' hstep hstep', hname⟩

theorem exists_twin_literal {token : String} {c : ItemId} (hc : t.literal? p token = some c) :
    ∃ c', t'.literal? p' token = some c' ∧ t.Twins t' c c' := by
  have w := r.wellFormed
  have w' := r'.wellFormed
  obtain ⟨hparent, name, hslot, htoken⟩ := w.literal?_eq_some_iff.mp hc
  -- a name is found again as a name and an alias as an alias, whichever was entered first
  rcases htoken with rfl | halias
  · obtain ⟨c', hc', twins, _⟩ :=
      r.exists_twin_occupant r' parents (w.mem_occupants.mpr ⟨hparent, hslot⟩)
    exact ⟨c', literal?_eq_some.mpr (.inl hc'), twins⟩
  · have haliased := w.aliased?_iff.mpr ⟨hparent, ⟨name, hslot⟩, halias⟩
    have hdemand := r.answer_iff.mpr ⟨p, c, haliased, rfl, hslot⟩
    obtain ⟨c', haliased', hslot'⟩ :=
      r'.aliased_of_answer parents.lt_size' (parents.address_eq ▸ hdemand)
    obtain ⟨hparent', _, halias'⟩ := w'.aliased?_iff.mp haliased'
    exact ⟨c', w'.literal?_eq_some_iff.mpr ⟨hparent', name, hslot', .inr halias'⟩,
      parents.child w w' hparent hparent' (step?_of_static hslot) (step?_of_static hslot')⟩

theorem literal?_alike (token : String) :
    (t.literal? p token = none ∧ t'.literal? p' token = none) ∨
      ∃ c c', t.literal? p token = some c ∧ t'.literal? p' token = some c' ∧ t.Twins t' c c' := by
  refine none_or_some_of_forall (fun _ => r.exists_twin_literal r' parents) fun c' hc' => ?_
  obtain ⟨c, hc, _⟩ := r'.exists_twin_literal r parents.symm hc'
  exact ⟨c, hc⟩

/-- The dynamic children, and likewise the spread children. -/
theorem occupant_alike {slot : Slot} {o o' : Option ItemId}
    (ho : ∀ {c}, o = some c ↔ c ∈ t.occupants p slot)
    (ho' : ∀ {c}, o' = some c ↔ c ∈ t'.occupants p' slot) :
    (o = none ∧ o' = none) ∨
      ∃ c c', o = some c ∧ o' = some c' ∧ t.Twins t' c c' ∧ t'.name c' = t.name c := by
  refine none_or_some_of_forall (fun c hc => ?_) fun c' hc' => ?_
  · obtain ⟨c', hc', twins⟩ := r.exists_twin_occupant r' parents (ho.mp hc)
    exact ⟨c', ho'.mpr hc', twins⟩
  · obtain ⟨c, hc, _⟩ := r'.exists_twin_occupant r parents.symm (ho'.mp hc')
    exact ⟨c, ho.mpr hc⟩

end

/-- From twins the same tokens lead to twins, with the same bindings, or nowhere in either tree. -/
theorem followFrom_alike {p p' : ItemId} (parents : t.Twins t' p p') (tokens : List String) :
    (t.followFrom p tokens = none ∧ t'.followFrom p' tokens = none) ∨
      ∃ n n' bindings, t.followFrom p tokens = some (n, bindings) ∧
        t'.followFrom p' tokens = some (n', bindings) ∧ t.Twins t' n n' := by
  induction tokens generalizing p p' with
  | nil => exact .inr ⟨p, p', [], rfl, rfl, parents⟩
  | cons token rest ih =>
      rw [followFrom_cons, followFrom_cons]
      obtain ⟨hl, hl'⟩ | ⟨c, c', hl, hl', twins⟩ := r.literal?_alike r' parents token
      · rw [hl, hl']
        obtain ⟨hd, hd'⟩ | ⟨c, c', hd, hd', twins, hname⟩ :=
          r.occupant_alike r' parents dynamic?_eq_some dynamic?_eq_some
        · rw [hd, hd']
          obtain ⟨hs, hs'⟩ | ⟨c, c', hs, hs', twins, hname⟩ :=
            r.occupant_alike r' parents spread?_eq_some spread?_eq_some
          · rw [hs, hs']
            exact .inl ⟨rfl, rfl⟩
          · rw [hs, hs']
            exact .inr ⟨c, c', [(t.name c, .many (token :: rest))], rfl, hname ▸ rfl, twins⟩
        · rw [hd, hd']
          simp only [hname]
          obtain ⟨hf, hf'⟩ | ⟨n, n', bindings, hf, hf', reached⟩ := ih twins
          · rw [hf, hf']
            exact .inl ⟨rfl, rfl⟩
          · rw [hf, hf']
            exact .inr ⟨n, n', (t.name c, .one token) :: bindings, rfl, rfl, reached⟩
      · rw [hl, hl']
        exact ih twins

end Realizes

/-- The trees have the same routes, and tokens lead to the same route in both, with the same
bindings, or nowhere in either. -/
structure Alike (t t' : CommandTree) : Prop where
  routes_iff : ∀ route,
    (∃ id < t.size, t.routeOf id = route) ↔ ∃ id < t'.size, t'.routeOf id = route
  follow_eq : ∀ tokens, (t.follow tokens).map (fun reached => (t.routeOf reached.1, reached.2)) =
    (t'.follow tokens).map fun reached => (t'.routeOf reached.1, reached.2)

namespace Realizes
variable {t t' : CommandTree} {ds : List Demand} (r : t.Realizes ds) (r' : t'.Realizes ds)
include r r'

theorem exists_same_route {route : String} (h : ∃ id < t.size, t.routeOf id = route) :
    ∃ id < t'.size, t'.routeOf id = route := by
  obtain ⟨id, hid, rfl⟩ := h
  obtain ⟨id', twins⟩ := r.exists_twin r' hid
  exact ⟨id', twins.lt_size', twins.routeOf_eq r.wellFormed r'.wellFormed⟩

theorem alike : t.Alike t' := by
  have w := r.wellFormed
  have w' := r'.wellFormed
  refine ⟨fun route => ⟨r.exists_same_route r', r'.exists_same_route r⟩, fun tokens => ?_⟩
  rw [follow, follow]
  obtain ⟨hf, hf'⟩ | ⟨n, n', bindings, hf, hf', twins⟩ :=
    r.followFrom_alike r' (.root w w') tokens
  · rw [hf, hf']
    rfl
  · rw [hf, hf', Option.map_some, Option.map_some, twins.routeOf_eq w w']

end Realizes
end CommandTree

namespace Dispatcher
variable {m : Type → Type} [Monad m] {options : Options} {entries : List RouteEntry}

theorem realizes_of_ofEntries {d : Dispatcher m} (h : ofEntries options entries = .ok d) :
    d.tree.Realizes (entries.flatMap RouteEntry.demands) := by
  have met := met_ofEntries (m := m) options entries
  rw [h] at met
  exact met.2

/-- Entries can be registered just if their demands are at peace. -/
theorem exists_ofEntries_iff :
    (∃ d : Dispatcher m, ofEntries options entries = .ok d) ↔
      Peaceful (entries.flatMap RouteEntry.demands) := by
  constructor
  · rintro ⟨d, hd⟩
    exact (realizes_of_ofEntries hd).peaceful
  · intro peaceful
    have met := met_ofEntries (m := m) options entries
    cases hd : (ofEntries options entries : Except TableFault (Dispatcher m)) with
    | ok d => exact ⟨d, rfl⟩
    | error f =>
        rw [hd] at met
        exact absurd peaceful met

end Dispatcher

/-- Whether a table can be registered does not depend on the order of its routes, nor do the routes
of its tree and what tokens lead to. Only the fault that is met first may be another one. -/
theorem Table.dispatcher_perm {m : Type → Type} [Monad m] (t : Table) {routes : List RouteEntry}
    (h : t.routes.Perm routes) :
    ((∃ d : Dispatcher m, t.dispatcher = .ok d) ↔
      ∃ d : Dispatcher m, Table.dispatcher { t with routes } = .ok d) ∧
    ∀ d d' : Dispatcher m, t.dispatcher = .ok d → Table.dispatcher { t with routes } = .ok d' →
      d.tree.Alike d'.tree := by
  have hdemands := h.flatMap_right RouteEntry.demands
  constructor
  · exact Dispatcher.exists_ofEntries_iff.trans
      ((Peaceful.perm hdemands).trans Dispatcher.exists_ofEntries_iff.symm)
  · intro d d' hd hd'
    have r := Dispatcher.realizes_of_ofEntries hd
    have r' := Dispatcher.realizes_of_ofEntries hd'
    exact r.alike (r'.of_mem_iff r.peaceful fun _ => hdemands.mem_iff)

/-- An alias and a common switch of one item, given to it by different routes. -/
theorem Table.dispatcher_perm_alias_common :
    let copy : RouteEntry := { path := "copy/:from", aliases := ["cp"] }
    let force : RouteEntry :=
      { path := "/copy", switches := { commonOptional := [{ long := some "force" }] } }
    let clean : RouteEntry := { path := "clean/...paths" }
    let t : Table := { routes := [copy, force, clean] }
    let routes := [clean, force, copy]
    t.routes.Perm routes ∧ ∃ d d' : Dispatcher Id, t.dispatcher = .ok d ∧
      Table.dispatcher { t with routes } = .ok d' ∧ d.tree.Alike d'.tree ∧
      d.tree.follow ["cp", "a"] = some (2, [("from", .one "a")]) ∧
      d'.tree.follow ["cp", "a"] = some (4, [("from", .one "a")]) := by
  intro copy force clean t routes
  have hperm : t.routes.Perm routes := by decide
  obtain ⟨_, alike⟩ := t.dispatcher_perm (m := Id) hperm
  have hfollow : (t.dispatcher : Except TableFault (Dispatcher Id)).toOption.bind
      (·.tree.follow ["cp", "a"]) = some (2, [("from", .one "a")]) := by decide +kernel
  have hfollow' : (Table.dispatcher { t with routes } :
      Except TableFault (Dispatcher Id)).toOption.bind
      (·.tree.follow ["cp", "a"]) = some (4, [("from", .one "a")]) := by decide +kernel
  cases hd : (t.dispatcher : Except TableFault (Dispatcher Id)) with
  | error f =>
      rw [hd] at hfollow
      cases hfollow
  | ok d =>
      cases hd' : (Table.dispatcher { t with routes } : Except TableFault (Dispatcher Id)) with
      | error f =>
          rw [hd'] at hfollow'
          cases hfollow'
      | ok d' =>
          rw [hd] at hfollow
          rw [hd'] at hfollow'
          exact ⟨hperm, d, d', rfl, rfl, alike d d' hd hd', hfollow, hfollow'⟩

end CommandRoutes
