import CommandRoutes.Proofs.Tree.Ensuring
import CommandRoutes.Proofs.Route.Grammar
import Mathlib.Data.Nat.Find

/-!
# Routes that are refused

Of a route that can be read some segments, from the first on, stand already. What
decides is the first one that does not: it is refused where another dynamic or
spread child, or an alias of a child, is in its way, and for nothing else. Once an
item is attached nothing can be in the way any more.
-/
namespace CommandRoutes

/-- What keeps a segment out below `parent`, and the fault that says so. -/
inductive Segment.Refused (t : CommandTree) (parent : ItemId) : Segment → Fault → Prop
  | secondDynamic {child : ItemId} {existing name : String} :
      t.parent? child = some parent → t.segment? child = some (.dynamic existing) →
      existing ≠ name →
      Refused t parent (.dynamic name) (.secondDynamic (t.routeOf parent) existing name)
  | secondSpread {child : ItemId} {existing name : String} :
      t.parent? child = some parent → t.segment? child = some (.spread existing) →
      existing ≠ name →
      Refused t parent (.spread name) (.secondSpread (t.routeOf parent) existing name)
  | aliasTaken {child : ItemId} {name : String} :
      t.parent? child = some parent → name ∈ t.aliasesOf child →
      Refused t parent (.static name) (.aliasTaken (t.routeOf parent) name)

/-- The faults that name something in the way of a new item. -/
def Fault.IsConflict : Fault → Prop
  | secondDynamic .. | secondSpread .. | aliasTaken .. => True
  | _ => False

theorem Segment.Refused.isConflict {t : CommandTree} {parent : ItemId} {s : Segment}
    {fault : Fault} (h : s.Refused t parent fault) : fault.IsConflict := by
  cases h <;> trivial

theorem Route.Registrable.of_append {before rest : List Segment}
    (h : Registrable (before ++ rest)) : Registrable rest := by
  induction before with
  | nil => exact h
  | cons s before ih => exact ih h.tail

namespace CommandTree
variable {t : CommandTree}

theorem exists_static_of_mem_aliasesOf {id : ItemId} {aliasName : String}
    (h : aliasName ∈ t.aliasesOf id) : ∃ name, t.slot? id = some (.static name) := by
  cases hitem : t.get? id with
  | none => simp [aliasesOf, hitem] at h
  | some item =>
      rcases item with ⟨name, parent, kind, description, isPrivate, required, optional⟩
      cases kind with
      | static aliases b => exact ⟨name, by simp [slot?, hitem, PathItem.slot?]⟩
      | root b => simp [aliasesOf, hitem, PathItem.aliases] at h
      | dynamic b => simp [aliasesOf, hitem, PathItem.aliases] at h
      | spread => simp [aliasesOf, hitem, PathItem.aliases] at h
      | switch predicates => simp [aliasesOf, hitem, PathItem.aliases] at h

/-! ## One segment -/

namespace WellFormed
variable (w : t.WellFormed) {parent : ItemId} {s : Segment} {fault : Fault}
include w

theorem mem_occupants_of_segment? {id : ItemId} (hparent : t.parent? id = some parent)
    (hs : t.segment? id = some s) : id ∈ t.occupants parent s.slot :=
  w.mem_occupants.mpr ⟨hparent, by rw [slot?_eq_map_segment?, hs]; rfl⟩

/-- An item in a slot stands for a segment that fits the slot and has the name of the item. -/
theorem exists_segment_of_mem_occupants {id : ItemId} {slot : Slot}
    (h : id ∈ t.occupants parent slot) :
    t.parent? id = some parent ∧ ∃ s, t.segment? id = some s ∧ s.slot = slot ∧
      s.label = t.name id := by
  obtain ⟨hparent, hslot⟩ := w.occupant h
  rw [slot?_eq_map_segment?] at hslot
  obtain ⟨s, hs, hown⟩ := Option.map_eq_some_iff.mp hslot
  exact ⟨hparent, s, hs, hown, (w.name_of_segment? hs).symm⟩

theorem exists_refused_of_blocked (h : s.Blocked t parent) : ∃ fault, s.Refused t parent fault := by
  obtain ⟨hslot, id, hmem, hname⟩ | ⟨name, id, rfl, halias⟩ := h
  · obtain ⟨hparent, own, hown, hsame, hlabel⟩ := w.exists_segment_of_mem_occupants hmem
    rw [← hlabel] at hname
    cases s with
    | static name =>
        -- who stands in the slot of a name has this name
        obtain rfl := Segment.slot_eq_static.mp hsame
        exact absurd rfl hname
    | dynamic name =>
        cases own <;> cases hsame
        exact ⟨_, .secondDynamic hparent hown hname⟩
    | spread name =>
        cases own <;> cases hsame
        exact ⟨_, .secondSpread hparent hown hname⟩
    | switch predicates => exact absurd rfl hslot
  · obtain ⟨hparent, _, hmem⟩ := w.aliased?_iff.mp halias
    exact ⟨_, .aliasTaken hparent hmem⟩

theorem ensureSegment_of_refused (named : s.WellNamed) (h : s.Refused t parent fault) :
    t.ensureSegment parent s = ⟨t, .error fault⟩ := by
  cases h with
  | @secondDynamic child existing name hparent hsegment hne =>
      have hmem : child ∈ t.occupants parent .dynamic :=
        w.mem_occupants_of_segment? hparent hsegment
      obtain ⟨b, hb, hocc⟩ := exists_branch_of_mem_occupants hmem
      have hd : b.dynamic = some child := by simpa [Branch.occupants] using hocc
      have hname : t.name child = existing := w.name_of_segment? hsegment
      simp [ensureSegment, ensureDynamic, show checkName name = .ok () from named,
        branchOf_eq_ok.mpr hb, hd, hname, hne]
  | @secondSpread child existing name hparent hsegment hne =>
      have hmem : child ∈ t.occupants parent .spread :=
        w.mem_occupants_of_segment? hparent hsegment
      obtain ⟨b, hb, hocc⟩ := exists_branch_of_mem_occupants hmem
      have hs : b.spread = some child := by simpa [Branch.occupants] using hocc
      have hname : t.name child = existing := w.name_of_segment? hsegment
      simp [ensureSegment, ensureSpread, show checkName name = .ok () from named,
        branchOf_eq_ok.mpr hb, hs, hname, hne]
  | @aliasTaken child name hparent hmem =>
      have halias : t.aliased? parent name = some child :=
        w.aliased?_iff.mpr ⟨hparent, exists_static_of_mem_aliasesOf hmem, hmem⟩
      obtain ⟨b, hb, hentry⟩ := Option.bind_eq_some_iff.mp halias
      have hs : b.statics.get? name = none := by
        simpa [occupants, hb, Branch.occupants] using w.alias_free halias
      simp [ensureSegment, ensureStatic, show checkName name = .ok () from named,
        branchOf_eq_ok.mpr hb, hs, NameMap.contains, hentry]

/-- Below a branch a segment stands already, or has room, or is refused. -/
theorem stands_or_hasRoom_or_refused {b : Branch} (hb : t.branch? parent = some b)
    (named : s.WellNamed) :
    (∃ id, t.StandsAt parent s id) ∨ s.HasRoom t parent ∨ ∃ fault, s.Refused t parent fault := by
  obtain ⟨id, stands, _⟩ | ⟨room, _⟩ | ⟨blocked, _⟩ := w.ensureSegment_cases hb named
  · exact .inl ⟨id, stands⟩
  · exact .inr (.inl room)
  · exact .inr (.inr (w.exists_refused_of_blocked blocked))

end WellFormed

/-! ## All segments -/

/-- Where the first segment does not stand, the registration fails just if this one is refused. -/
theorem WellFormed.ensureSegments_error_iff (w : t.WellFormed) {parent : ItemId}
    {segments : List Segment} {fault : Fault} (ready : Route.Registrable segments)
    (branched : segments ≠ [] → ∃ b, t.branch? parent = some b)
    (stuck : ∀ s ∈ segments.head?, ∀ id, ¬t.StandsAt parent s id) :
    (t.ensureSegments parent segments).result = .error fault ↔
      ∃ s later, segments = s :: later ∧ s.Refused t parent fault := by
  cases segments with
  | nil => simp [ensureSegments]
  | cons s later =>
      have hrefused : ∀ {e : Fault}, s.Refused t parent e →
          (t.ensureSegments parent (s :: later)).result = .error e := by
        intro e refused
        rw [ensureSegments, w.ensureSegment_of_refused ready.head refused]
        rfl
      constructor
      · intro h
        obtain ⟨b, hb⟩ := branched (List.cons_ne_nil s later)
        obtain ⟨id, stands⟩ | room | ⟨e, refused⟩ := w.stands_or_hasRoom_or_refused hb ready.head
        · exact absurd stands (stuck s rfl id)
        · obtain ⟨ids, hids⟩ := ensureSegments_of_hasRoom ready hb room
          cases hids.symm.trans h
        · cases (hrefused refused).symm.trans h
          exact ⟨s, later, rfl, refused⟩
      · rintro ⟨_, _, ⟨rfl, rfl⟩, refused⟩
        exact hrefused refused

namespace Chain
variable {parent : ItemId} {before : List Segment} {ids : List ItemId}

theorem exists_branch (h : Chain t parent before ids) (hb : ∃ b, t.branch? parent = some b)
    (hopen : ∀ s ∈ before, s.endsRoute = false) :
    ∃ b, t.branch? (ids.getLast?.getD parent) = some b := by
  induction h with
  | nil => exact hb
  | cons stands _ ih =>
      obtain ⟨hs, hrest⟩ := List.forall_mem_cons.mp hopen
      simpa [List.getLast?_cons] using ih (exists_branch_of_standsAt stands hs) hrest

end Chain

/-- As these items stand as many of the segments, from the first on, as stand already; the rest is
what is left of them. -/
structure Standing (t : CommandTree) (segments before rest : List Segment) (ids : List ItemId) :
    Prop where
  split : segments = before ++ rest
  chain : Chain t rootId before ids
  longest : ∀ {before' rest' ids'}, segments = before' ++ rest' → Chain t rootId before' ids' →
    before'.length ≤ before.length

namespace Standing
variable {segments before rest : List Segment} {ids : List ItemId}

open Classical in
theorem exists_of (t : CommandTree) (segments : List Segment) :
    ∃ before rest ids, t.Standing segments before rest ids := by
  let Stands (n : Nat) : Prop := ∃ ids, Chain t rootId (segments.take n) ids
  have hnone : Stands 0 := ⟨[], .nil⟩
  obtain ⟨ids, hchain⟩ : Stands (Nat.findGreatest Stands segments.length) :=
    Nat.findGreatest_spec (Nat.zero_le _) hnone
  refine ⟨_, _, ids, (List.take_append_drop _ segments).symm, hchain, ?_⟩
  intro before' rest' ids' hsplit hchain'
  have hlength : before'.length ≤ segments.length := by simp [hsplit]
  have hstands : Stands before'.length := ⟨ids', by simpa [hsplit] using hchain'⟩
  have hle := Nat.le_findGreatest hlength hstands
  rwa [List.length_take, Nat.min_eq_left (Nat.findGreatest_le _)]

/-- The first segment of the rest does not stand below the last item. -/
theorem stuck (h : t.Standing segments before rest ids) :
    ∀ s ∈ rest.head?, ∀ id, ¬t.StandsAt (ids.getLast?.getD rootId) s id := by
  intro s hs id stands
  obtain ⟨later, rfl⟩ := List.head?_eq_some_iff.mp hs
  have hsplit : segments = (before ++ [s]) ++ later := by simp [h.split]
  have hlonger := h.longest hsplit (h.chain.concat stands)
  rw [List.length_append, List.length_singleton] at hlonger
  exact Nat.not_succ_le_self _ hlonger

variable (w : t.WellFormed) (ready : Route.Registrable segments)
include w ready

theorem ensureSegments_error_iff (h : t.Standing segments before rest ids) {fault : Fault} :
    (t.ensureSegments rootId segments).result = .error fault ↔
      ∃ s later, rest = s :: later ∧ s.Refused t (ids.getLast?.getD rootId) fault := by
  obtain rfl := h.split
  have named : ∀ s ∈ before, s.WellNamed :=
    fun s hs => ready.named s (List.mem_append_left _ hs)
  have branched : rest ≠ [] → ∃ b, t.branch? (ids.getLast?.getD rootId) = some b := by
    intro hrest
    refine h.chain.exists_branch w.exists_branch_rootId fun s hs => ?_
    refine Route.misplaced?_eq_none_iff.mp ready.last s ?_
    rw [List.dropLast_append_of_ne_nil hrest]
    exact List.mem_append_left _ hs
  rw [h.chain.ensureSegments_append w named rest, Grown.result_map_eq_error]
  exact w.ensureSegments_error_iff ready.of_append branched h.stuck

end Standing

/-- A route that cannot be read fails as reading it does. Any other route fails just where its first
segment that does not stand is refused below the last item that does, and only with the fault that
names what is in the way. -/
theorem Reachable.ensureLeaf_error_iff (h : t.Reachable) (route : String) :
    (∀ fault, Route.read route = .error fault → (t.ensureLeaf route).result = .error fault) ∧
    ∀ segments, Route.read route = .ok segments →
      (∃ before rest ids, t.Standing segments before rest ids) ∧
      (∀ before rest ids, t.Standing segments before rest ids → ∀ fault,
        (t.ensureLeaf route).result = .error fault ↔
          ∃ s later, rest = s :: later ∧ s.Refused t (ids.getLast?.getD rootId) fault) ∧
      ∀ fault, (t.ensureLeaf route).result = .error fault → fault.IsConflict := by
  have w := h.wellFormed
  refine ⟨fun fault hread => ?_, fun segments hread => ?_⟩
  · rw [ensureLeaf, ensureRoute, hread]
    rfl
  · have hfault : ∀ before rest ids, t.Standing segments before rest ids → ∀ fault,
        (t.ensureLeaf route).result = .error fault ↔
          ∃ s later, rest = s :: later ∧ s.Refused t (ids.getLast?.getD rootId) fault := by
      intro before rest ids standing fault
      rw [ensureLeaf, Grown.result_map_eq_error, t.ensureRoute_of_read hread]
      exact standing.ensureSegments_error_iff w (Route.registrable_of_read hread)
    obtain ⟨before, rest, ids, standing⟩ := Standing.exists_of t segments
    refine ⟨⟨before, rest, ids, standing⟩, hfault, fun fault herror => ?_⟩
    obtain ⟨_, _, _, refused⟩ := (hfault before rest ids standing fault).mp herror
    exact refused.isConflict

/-- The name of the route's first segment is an alias of the child of the root. -/
theorem ensureLeaf_error_iff_alias :
    let t := ((CommandTree.new.perform (.static rootId "remove")).tree.perform
      (.giveAlias 1 "rm")).tree
    let segments : List Segment := [.static "rm", .dynamic "name"]
    t.Reachable ∧ t.Standing segments [] segments [] ∧
      (t.ensureLeaf "/rm/:name").result = .error (.aliasTaken (t.routeOf rootId) "rm") := by
  intro t segments
  have reached : t.Reachable := (Reachable.new.perform _).perform _
  have hread : Route.read "/rm/:name" = .ok segments := by decide +kernel
  have hsize : t.size = 2 := by decide +kernel
  have hnone : ∀ id < 2, t.step? id ≠ some (Segment.static "rm").step := by decide +kernel
  have standing : t.Standing segments [] segments [] := by
    refine ⟨rfl, .nil, fun {before' rest' ids'} hsplit hchain => ?_⟩
    cases hchain with
    | nil => exact Nat.le_refl _
    | @cons _ id _ _ _ stands _ =>
        have hid : id < t.size := lt_size_of_parent? stands.1
        obtain ⟨rfl, _⟩ := List.cons.inj hsplit
        exact absurd stands.2 (hnone id (hsize ▸ hid))
  have refused : (Segment.static "rm").Refused t rootId (.aliasTaken (t.routeOf rootId) "rm") := by
    have hparent : t.parent? 1 = some rootId := by decide +kernel
    exact .aliasTaken hparent (by decide +kernel)
  obtain ⟨_, hfault, _⟩ := (reached.ensureLeaf_error_iff "/rm/:name").2 segments hread
  exact ⟨reached, standing, (hfault _ _ _ standing _).mpr ⟨_, _, rfl, refused⟩⟩

end CommandTree
end CommandRoutes
