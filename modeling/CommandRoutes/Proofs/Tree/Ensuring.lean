import CommandRoutes.Proofs.Tree.Address
import CommandRoutes.Proofs.Tree.Atomicity

/-!
# Registering what stands already

Below a branch a segment stands already, has room, or is blocked, and registering
it answers with the item that stands, attaches a new one, or fails. The segments
of a route are registered as a chain of items, each standing below the one
before. What stands in a chain is registered again without a change, and the
segments on the way to an item are such a chain.
-/
namespace CommandRoutes

/-- Another item in the slot, or an alias of the name, keeps the segment out. -/
def Segment.Blocked (s : Segment) (t : CommandTree) (parent : ItemId) : Prop :=
  (s.slot ≠ .switchItem ∧ ∃ id ∈ t.occupants parent s.slot, t.name id ≠ s.label) ∨
    ∃ name id, s = .static name ∧ t.aliased? parent name = some id

namespace CommandTree
variable {t : CommandTree}

theorem segment?_eq_switch {id : ItemId} {predicates : List Predicate} :
    t.segment? id = some (.switch predicates) ↔ t.predicates? id = some predicates := by
  rw [predicates?_eq_bind_segment?]
  cases hs : t.segment? id with
  | none => simp
  | some s => cases s <;> simp [Segment.predicates?]

theorem segment?_eq_static {id : ItemId} {name : String} :
    t.segment? id = some (.static name) ↔ t.slot? id = some (.static name) := by
  rw [slot?_eq_map_segment?]
  cases hs : t.segment? id with
  | none => simp
  | some s => simp [Segment.slot_eq_static]

theorem step?_of_static {id : ItemId} {name : String} (h : t.slot? id = some (.static name)) :
    t.step? id = some (Segment.static name).step := by
  rw [step?, segment?_eq_static.mpr h, Option.map_some]

/-! ## One segment -/

theorem not_blocked_of_hasRoom {parent : ItemId} {s : Segment} (room : s.HasRoom t parent) :
    ¬s.Blocked t parent := by
  rintro (⟨hslot, other, hother, _⟩ | ⟨name, other, rfl, halias⟩)
  · rw [room.free.resolve_left hslot] at hother
    cases hother
  · rw [room.2] at halias
    cases halias

namespace WellFormed
variable (w : t.WellFormed) {parent id : ItemId} {b : Branch} {s : Segment}
include w

theorem standsAt_iff :
    t.StandsAt parent s id ↔ id ∈ t.occupants parent s.slot ∧ t.name id = s.label := by
  rw [StandsAt, w.step?_eq_some, w.mem_occupants, and_assoc]
  rfl

/-- What registering may use again stands there. -/
theorem standsAt_of_mem_occupants (hmem : id ∈ t.occupants parent s.slot)
    (hname : s.slot = .static s.label ∨ t.name id = s.label) : t.StandsAt parent s id := by
  rcases hname with hslot | hname
  · obtain ⟨hparent, hown⟩ := w.occupant hmem
    rw [hslot] at hown
    refine ⟨hparent, ?_⟩
    rw [step?, segment?_eq_static.mpr hown, Option.map_some, ← Segment.slot_eq_static.mp hslot]
  · exact w.standsAt_iff.mpr ⟨hmem, hname⟩

theorem ensureSegment_of_standsAt (named : s.WellNamed) (h : t.StandsAt parent s id) :
    t.ensureSegment parent s = ⟨t, .ok id⟩ := by
  obtain ⟨hmem, hname⟩ := w.standsAt_iff.mp h
  obtain ⟨b, hb, hocc⟩ := exists_branch_of_mem_occupants hmem
  have hok := branchOf_eq_ok.mpr hb
  cases s with
  | static name =>
      have hs : b.statics.get? name = some id := by
        simpa [Segment.slot, Branch.occupants] using hocc
      simp [ensureSegment, ensureStatic, show checkName name = .ok () from named, hok, hs]
  | dynamic name =>
      have hd : b.dynamic = some id := by simpa [Segment.slot, Branch.occupants] using hocc
      have hname : t.name id = name := hname
      simp [ensureSegment, ensureDynamic, show checkName name = .ok () from named, hok, hd, hname]
  | spread name =>
      have hs : b.spread = some id := by simpa [Segment.slot, Branch.occupants] using hocc
      have hname : t.name id = name := hname
      simp [ensureSegment, ensureSpread, show checkName name = .ok () from named, hok, hs, hname]
  | switch predicates =>
      -- no other switch item of the branch is written in this way
      have hname : t.name id = Predicate.renderAll predicates := hname
      have hnodup := w.switchItems_nodup parent
      simp only [occupants, hb, Option.map_some, Option.getD_some, Branch.occupants] at hnodup
      have hfind : b.switchItems.find? (fun i => t.name i = Predicate.renderAll predicates) =
          some id := by
        cases hf : b.switchItems.find? fun i => t.name i = Predicate.renderAll predicates with
        | none => exact absurd hname (by simpa using List.find?_eq_none.mp hf id hocc)
        | some other =>
            have hother : t.name other = Predicate.renderAll predicates := by
              simpa using List.find?_some hf
            have hmem := List.mem_of_find?_eq_some hf
            rw [List.inj_on_of_nodup_map hnodup hmem hocc (hother.trans hname.symm)]
      simp [ensureSegment, ensureSwitchItem, hok, hfind]

theorem not_blocked_of_standsAt (h : t.StandsAt parent s id) : ¬s.Blocked t parent := by
  obtain ⟨hmem, hname⟩ := w.standsAt_iff.mp h
  rintro (⟨hslot, other, hother, hne⟩ | ⟨name, other, rfl, halias⟩)
  · obtain ⟨b, hb, hocc⟩ := exists_branch_of_mem_occupants hmem
    simp only [occupants, hb, Option.map_some, Option.getD_some] at hother
    rw [Branch.eq_of_mem_occupants hslot hother hocc] at hne
    exact hne hname
  · rw [Segment.slot, w.alias_free halias] at hmem
    cases hmem

/-- What does not stand and is not blocked has room. -/
theorem hasRoom_of_not_blocked (stands : ∀ id, ¬t.StandsAt parent s id)
    (free : ¬s.Blocked t parent) : s.HasRoom t parent := by
  have empty : s.slot ≠ .switchItem → t.occupants parent s.slot = [] := by
    intro hslot
    refine List.eq_nil_iff_forall_not_mem.mpr fun i hi => ?_
    have hname : t.name i ≠ s.label := fun h => stands i (w.standsAt_iff.mpr ⟨hi, h⟩)
    exact free (.inl ⟨hslot, i, hi, hname⟩)
  cases s with
  | static name =>
      refine ⟨empty nofun, Option.eq_none_iff_forall_ne_some.mpr fun i hi => ?_⟩
      exact free (.inr ⟨name, i, rfl, hi⟩)
  | dynamic name => exact empty nofun
  | spread name => exact empty nofun
  | switch predicates => exact fun i hi hname => stands i (w.standsAt_iff.mpr ⟨hi, hname⟩)

/-- Registering a segment below a branch answers with what stands there, or attaches a new item
where there is room, or fails for what is in the way. -/
theorem ensureSegment_cases (hb : t.branch? parent = some b) (named : s.WellNamed) :
    (∃ id, t.StandsAt parent s id ∧ t.ensureSegment parent s = ⟨t, .ok id⟩) ∨
    (s.HasRoom t parent ∧ t.ensureSegment parent s = t.attachSegment parent s) ∨
    (s.Blocked t parent ∧ ∃ e, t.ensureSegment parent s = ⟨t, .error e⟩) := by
  by_cases stands : ∃ id, t.StandsAt parent s id
  · obtain ⟨id, hid⟩ := stands
    exact .inl ⟨id, hid, w.ensureSegment_of_standsAt named hid⟩
  · by_cases blocked : s.Blocked t parent
    · refine .inr (.inr ⟨blocked, ?_⟩)
      have ensured := t.ensured_ensureSegment parent s
      generalize t.ensureSegment parent s = g at ensured
      cases ensured with
      | refused e => exact ⟨e, rfl⟩
      | @reused id hmem hname => exact absurd ⟨id, w.standsAt_of_mem_occupants hmem hname⟩ stands
      | attached _ _ room => exact absurd blocked (not_blocked_of_hasRoom room)
    · have room := w.hasRoom_of_not_blocked (not_exists.mp stands) blocked
      exact .inr (.inl ⟨room, ensureSegment_of_hasRoom hb named room⟩)

theorem standsAt_of_ensureSegment (h : (t.ensureSegment parent s).result = .ok id) :
    (t.ensureSegment parent s).tree.StandsAt parent s id := by
  have ensured := t.ensured_ensureSegment parent s
  generalize t.ensureSegment parent s = g at h ensured
  cases ensured with
  | refused e => cases h
  | reused hmem hname =>
      cases h
      exact w.standsAt_of_mem_occupants hmem hname
  | attached hb _ _ =>
      cases h
      refine ⟨?_, ?_⟩
      · rw [parent?_attachSegment hb, if_pos rfl]
      · rw [step?, segment?_attachSegment hb, if_pos rfl]
        rfl

end WellFormed

/-- The segments stand one below the other, from `parent` down, as these items. -/
inductive Chain (t : CommandTree) : ItemId → List Segment → List ItemId → Prop
  | nil {parent : ItemId} : Chain t parent [] []
  | cons {parent id : ItemId} {s : Segment} {segments : List Segment} {ids : List ItemId} :
      t.StandsAt parent s id → Chain t id segments ids →
      Chain t parent (s :: segments) (id :: ids)

namespace Chain
variable {parent id : ItemId} {s : Segment} {segments : List Segment} {ids : List ItemId}

theorem concat (h : Chain t parent segments ids)
    (stands : t.StandsAt (ids.getLast?.getD parent) s id) :
    Chain t parent (segments ++ [s]) (ids ++ [id]) := by
  induction h with
  | nil => exact .cons stands .nil
  | @cons parent first s' segments ids head _ ih =>
      refine .cons head (ih ?_)
      simpa [List.getLast?_cons] using stands

theorem length_eq (h : Chain t parent segments ids) : segments.length = ids.length := by
  induction h with
  | nil => rfl
  | cons _ _ ih => exact congrArg (· + 1) ih

theorem lt_size (h : Chain t parent segments ids) (hid : id ∈ ids) : id < t.size := by
  induction h with
  | nil => cases hid
  | cons stands _ ih =>
      rcases List.mem_cons.mp hid with rfl | hid
      · exact lt_size_of_parent? stands.1
      · exact ih hid

/-- A chain can be cut in front of any segment. -/
theorem of_append {before after : List Segment} (h : Chain t parent (before ++ after) ids) :
    ∃ upper lower, ids = upper ++ lower ∧ Chain t parent before upper ∧
      Chain t (upper.getLast?.getD parent) after lower := by
  induction before generalizing parent ids with
  | nil => exact ⟨[], ids, rfl, .nil, h⟩
  | cons s before ih =>
      cases h with
      | @cons _ first _ _ ids stands rest =>
          obtain ⟨upper, lower, rfl, hupper, hlower⟩ := ih rest
          refine ⟨first :: upper, lower, rfl, .cons stands hupper, ?_⟩
          simpa [List.getLast?_cons] using hlower

variable (w : t.WellFormed)
include w

theorem lt_of_mem (h : Chain t parent segments ids) (hid : id ∈ ids) : parent < id := by
  induction h with
  | nil => cases hid
  | cons stands _ ih =>
      have hlt := (w.placed stands.1).1
      rcases List.mem_cons.mp hid with rfl | hid
      · exact hlt
      · exact Nat.lt_trans hlt (ih hid)

theorem address (h : Chain t parent segments ids) :
    t.address (ids.getLast?.getD parent) = t.address parent ++ segments.map Segment.step := by
  induction h with
  | nil => simp
  | cons stands _ ih =>
      have hfirst := w.address_of_parent? stands.1 stands.2
      simp [List.getLast?_cons, ih, hfirst]

/-- What stands in a chain is found again, and the rest is registered below it. -/
theorem ensureSegments_append (h : Chain t parent segments ids)
    (named : ∀ s ∈ segments, s.WellNamed) (rest : List Segment) :
    t.ensureSegments parent (segments ++ rest) =
      (t.ensureSegments (ids.getLast?.getD parent) rest).map (ids ++ ·) := by
  induction h with
  | nil =>
      change t.ensureSegments _ rest = (t.ensureSegments _ rest).map id
      rw [Grown.map_id]
      rfl
  | cons stands _ ih =>
      obtain ⟨hs, hrest⟩ := List.forall_mem_cons.mp named
      rw [List.cons_append, CommandTree.ensureSegments, w.ensureSegment_of_standsAt hs stands]
      simp only [Grown.andThen, ih hrest, Grown.map_map, List.getLast?_cons, Option.getD_some]
      rfl

/-- What stands in a chain is registered again without a change. -/
theorem ensureSegments (h : Chain t parent segments ids) (named : ∀ s ∈ segments, s.WellNamed) :
    t.ensureSegments parent segments = ⟨t, .ok ids⟩ := by
  have hall := h.ensureSegments_append w named []
  rw [List.append_nil] at hall
  rw [hall]
  simp [CommandTree.ensureSegments, Grown.map, Except.map]

end Chain

theorem ensureSegments_cons_eq_ok {parent : ItemId} {s : Segment} {rest : List Segment}
    {ids : List ItemId} :
    (t.ensureSegments parent (s :: rest)).result = .ok ids ↔
      ∃ id lower, (t.ensureSegment parent s).result = .ok id ∧
        ((t.ensureSegment parent s).tree.ensureSegments id rest).result = .ok lower ∧
        ids = id :: lower := by
  rw [ensureSegments, Grown.andThen]
  cases (t.ensureSegment parent s).result with
  | error e => simp
  | ok id =>
      simp only [Grown.map]
      cases hrest : ((t.ensureSegment parent s).tree.ensureSegments id rest).result with
      | error e => simp [Except.map, hrest]
      | ok lower => simp [Except.map, hrest, eq_comm]

namespace WellFormed
variable (w : t.WellFormed)
include w

/-- The segments on the way to an item are a chain that ends there. -/
theorem exists_chain_segmentsTo {id : ItemId} (hid : id < t.size) :
    ∃ ids, Chain t rootId (t.segmentsTo id) ids ∧ ids.getLast?.getD rootId = id := by
  induction id using Nat.strong_induction_on with
  | _ id ih =>
      cases hp : t.parent? id with
      | none =>
          obtain rfl := (w.parent?_eq_none_iff hid).mp hp
          exact ⟨[], w.segmentsTo_rootId ▸ .nil, rfl⟩
      | some p =>
          obtain ⟨s, hs⟩ := w.exists_segment_of_parent? hp
          have hlt := (w.placed hp).1
          obtain ⟨ids, hchain, hlast⟩ := ih p hlt (Nat.lt_trans hlt hid)
          refine ⟨ids ++ [id], ?_, by simp⟩
          rw [w.segmentsTo_of_parent? hp hs]
          exact hchain.concat ⟨hlast.symm ▸ hp, by simp [step?, hs]⟩

theorem edits {t' : CommandTree} (h : Edits t t') : t'.WellFormed := by
  induction h with
  | refl => exact w
  | tail _ step ih => exact ih.edit step

/-- Segments that were registered are a chain from then on. -/
theorem chain_of_ensureSegments {parent : ItemId} {segments : List Segment} {ids : List ItemId}
    (h : (t.ensureSegments parent segments).result = .ok ids) :
    Chain (t.ensureSegments parent segments).tree parent segments ids := by
  induction segments generalizing t parent ids with
  | nil =>
      cases h
      exact .nil
  | cons s rest ih =>
      obtain ⟨id, lower, hid, hlower, rfl⟩ := ensureSegments_cons_eq_ok.mp h
      have w' := w.edits (t.ensured_ensureSegment parent s).edits
      rw [ensureSegments_cons_ok hid]
      refine .cons ?_ (ih w' hlower)
      exact (Extends.of_edits (edits_ensureSegments ..)).standsAt (w.standsAt_of_ensureSegment hid)

/-- An item that a registration attached is the segment that was asked for. -/
theorem segment?_of_ensureSegments {parent : ItemId} {segments : List Segment}
    {ids : List ItemId} (h : (t.ensureSegments parent segments).result = .ok ids)
    {s : Segment} {id : ItemId} (hmem : (s, id) ∈ segments.zip ids) (new : t.size ≤ id) :
    (t.ensureSegments parent segments).tree.segment? id = some s := by
  induction segments generalizing t parent ids with
  | nil => simp at hmem
  | cons s' rest ih =>
      obtain ⟨first, lower, hfirst, hlower, rfl⟩ := ensureSegments_cons_eq_ok.mp h
      have w' := w.edits (t.ensured_ensureSegment parent s').edits
      have chain := w'.chain_of_ensureSegments hlower
      have ext := Extends.of_edits
        (edits_ensureSegments rest (t.ensureSegment parent s').tree first)
      have ensured := t.ensured_ensureSegment parent s'
      rw [ensureSegments_cons_ok hfirst]
      generalize t.ensureSegment parent s' = g at *
      cases ensured with
      | refused e => cases hfirst
      | reused hocc _ =>
          cases hfirst
          rcases List.mem_cons.mp hmem with hhead | hmem
          · cases hhead
            exact absurd new (Nat.not_le.mpr (w.occupant_lt_size hocc))
          · exact ih w hlower hmem new
      | attached hb _ _ =>
          cases hfirst
          rcases List.mem_cons.mp hmem with hhead | hmem
          · cases hhead
            refine (ext.segment?_eq t.size (by simp)).trans ?_
            rw [segment?_attachSegment hb, if_pos rfl]
          · have hlt : t.size < id := chain.lt_of_mem (w'.edits (edits_ensureSegments ..))
              (List.of_mem_zip hmem).2
            exact ih w' hlower hmem (Nat.le_trans (Nat.le_of_eq size_attachSegment) hlt)

end WellFormed
end CommandTree
end CommandRoutes
