import CommandRoutes.Proofs.Tree.Navigation

/-!
# Addresses

An item but the root is what one segment of a route stands for, and its place in
the tree is told by the segments from the root down to it. Only the slots and
names of the segments tell items apart: these are the steps of the address of an
item, and no two items of a well-formed tree have the same address. The ancestors
of an item are the items whose addresses are prefixes of its own. Once given, an
address is never taken back.
-/
namespace CommandRoutes

/-- One link of an address. -/
structure Step where
  slot : Slot
  name : String
  deriving DecidableEq

/-- A step as a route writes it. -/
def Step.spelling (step : Step) : String :=
  match step.slot with
  | .static _ | .switchItem => step.name
  | .dynamic => ":" ++ step.name
  | .spread => "..." ++ step.name

def Segment.step (s : Segment) : Step := ⟨s.slot, s.label⟩

theorem Segment.spelling_step (s : Segment) : s.step.spelling = s.render := by cases s <;> rfl

theorem Segment.endsRoute_iff {s : Segment} :
    s.endsRoute = true ↔ s.slot = .spread ∨ s.slot = .switchItem := by
  cases s <;> simp [endsRoute, slot]

/-- All slots but that of the switch items hold one child at most. -/
theorem Branch.eq_of_mem_occupants {b : Branch} {slot : Slot} (h : slot ≠ .switchItem)
    {i j : ItemId} (hi : i ∈ b.occupants slot) (hj : j ∈ b.occupants slot) : i = j := by
  cases slot with
  | switchItem => exact absurd rfl h
  | static name => simp_all [occupants]
  | dynamic => simp_all [occupants]
  | spread => simp_all [occupants]

namespace PathItem

/-- The segment that the item stands for. -/
def segment? (item : PathItem) : Option Segment :=
  match item.kind with
  | .root _ => none
  | .static .. => some (.static item.name)
  | .dynamic _ => some (.dynamic item.name)
  | .spread => some (.spread item.name)
  | .switch predicates => some (.switch predicates)

@[simp] theorem segment?_withBranch (f : Branch → Branch) (item : PathItem) :
    (item.withBranch f).segment? = item.segment? := by
  rcases item with ⟨name, parent, kind, description, isPrivate, required, optional⟩
  cases kind <;> rfl

@[simp] theorem segment?_addAlias (aliasName : String) (item : PathItem) :
    (item.addAlias aliasName).segment? = item.segment? := by
  unfold addAlias
  split
  · next h => simp only [segment?, h]
  · rfl

theorem slot?_eq_map_segment? (item : PathItem) : item.slot? = item.segment?.map Segment.slot := by
  rcases item with ⟨name, parent, kind, description, isPrivate, required, optional⟩
  cases kind <;> rfl

theorem predicates?_eq_bind_segment? (item : PathItem) :
    item.predicates? = item.segment?.bind Segment.predicates? := by
  rcases item with ⟨name, parent, kind, description, isPrivate, required, optional⟩
  cases kind <;> rfl

end PathItem

namespace CommandTree

def segment? (t : CommandTree) (id : ItemId) : Option Segment :=
  (t.get? id).bind PathItem.segment?

def step? (t : CommandTree) (id : ItemId) : Option Step := (t.segment? id).map Segment.step

/-- The segments of the route of an item. -/
def segmentsTo (t : CommandTree) (id : ItemId) : List Segment := (t.trail id).filterMap t.segment?

def address (t : CommandTree) (id : ItemId) : List Step := (t.segmentsTo id).map Segment.step

/-- The segment stands below `parent` as this item, though perhaps with other predicates that are
written in the same way. -/
def StandsAt (t : CommandTree) (parent : ItemId) (s : Segment) (id : ItemId) : Prop :=
  t.parent? id = some parent ∧ t.step? id = some s.step

variable {t : CommandTree}

theorem slot?_eq_map_segment? (id : ItemId) : t.slot? id = (t.segment? id).map Segment.slot := by
  rw [slot?, segment?, Option.map_bind]
  exact congrArg _ (funext PathItem.slot?_eq_map_segment?)

theorem predicates?_eq_bind_segment? (id : ItemId) :
    t.predicates? id = (t.segment? id).bind Segment.predicates? := by
  rw [predicates?, segment?, Option.bind_assoc]
  exact congrArg _ (funext PathItem.predicates?_eq_bind_segment?)

theorem slot?_of_step? {id : ItemId} {step : Step} (h : t.step? id = some step) :
    t.slot? id = some step.slot := by
  obtain ⟨s, hs, rfl⟩ := Option.map_eq_some_iff.mp h
  rw [slot?_eq_map_segment?, hs]
  rfl

theorem exists_branch_of_standsAt {parent id : ItemId} {s : Segment}
    (stands : t.StandsAt parent s id) (h : s.endsRoute = false) : ∃ b, t.branch? id = some b := by
  refine Option.ne_none_iff_exists'.mp fun hnone => ?_
  have hleaf := (branch?_eq_none_iff (lt_size_of_parent? stands.1)).mp hnone
  rw [slot?_of_step? stands.2, Option.some_inj, Option.some_inj] at hleaf
  simp [Segment.endsRoute_iff.mpr hleaf] at h

theorem spelling_of_segment? {id : ItemId} {s : Segment} (h : t.segment? id = some s) :
    t.spelling id = s.render := by
  obtain ⟨item, hitem, hsegment⟩ := Option.bind_eq_some_iff.mp h
  rw [spelling, hitem]
  rcases item with ⟨name, parent, kind, description, isPrivate, required, optional⟩
  cases kind <;> cases hsegment <;> rfl

theorem spelling_of_step? {id : ItemId} {step : Step} (h : t.step? id = some step) :
    t.spelling id = step.spelling := by
  obtain ⟨s, hs, rfl⟩ := Option.map_eq_some_iff.mp h
  rw [spelling_of_segment? hs, s.spelling_step]

/-- Items of branches do not end routes. -/
theorem endsRoute_of_branch? {id : ItemId} {b : Branch} {s : Segment} (hb : t.branch? id = some b)
    (hs : t.segment? id = some s) : s.endsRoute = false := by
  obtain ⟨item, hitem, hbranch⟩ := Option.bind_eq_some_iff.mp hb
  rcases item with ⟨name, parent, kind, description, isPrivate, required, optional⟩
  rw [segment?, hitem] at hs
  cases kind <;> simp_all [PathItem.segment?, PathItem.branch?, ItemKind.branch?] <;>
    subst hs <;> rfl

/-! ## In a well-formed tree -/

namespace WellFormed
variable (w : t.WellFormed)
include w

theorem name_of_segment? {id : ItemId} {s : Segment} (h : t.segment? id = some s) :
    t.name id = s.label := by
  obtain ⟨item, hitem, hs⟩ := Option.bind_eq_some_iff.mp h
  have hname : t.name id = item.name := by simp [name, hitem]
  rcases item with ⟨name, parent, kind, description, isPrivate, required, optional⟩
  cases kind with
  | switch predicates =>
      cases hs
      exact w.name_eq_renderAll (by simp [predicates?, hitem, PathItem.predicates?])
  | root b => cases hs
  | static aliases b =>
      cases hs
      exact hname
  | dynamic b =>
      cases hs
      exact hname
  | spread =>
      cases hs
      exact hname

theorem step?_eq_some {id : ItemId} {step : Step} :
    t.step? id = some step ↔ t.slot? id = some step.slot ∧ t.name id = step.name := by
  rw [slot?_eq_map_segment?, step?]
  cases hs : t.segment? id with
  | none => simp
  | some s =>
      rw [w.name_of_segment? hs]
      cases step
      simp [Segment.step]

theorem exists_segment_of_parent? {id p : ItemId} (h : t.parent? id = some p) :
    ∃ s, t.segment? id = some s := by
  obtain ⟨_, slot, hslot, _⟩ := w.placed h
  rw [slot?_eq_map_segment?] at hslot
  obtain ⟨s, hs, _⟩ := Option.map_eq_some_iff.mp hslot
  exact ⟨s, hs⟩

theorem segment?_rootId : t.segment? rootId = none := by
  obtain ⟨item, hitem⟩ := lt_size_iff.mp w.rootId_lt_size
  have hroot := (w.isRoot_iff rootId).mpr rfl
  rw [isRoot, hitem] at hroot
  rw [segment?, hitem]
  rcases item with ⟨name, parent, kind, description, isPrivate, required, optional⟩
  cases kind <;> simp_all [PathItem.segment?, ItemKind.isRoot]

theorem parent?_rootId : t.parent? rootId = none :=
  (w.parent?_eq_none_iff w.rootId_lt_size).mpr rfl

theorem exists_parent_of_slot? {id : ItemId} {slot : Slot} (h : t.slot? id = some slot) :
    ∃ p, t.parent? id = some p := by
  apply Option.ne_none_iff_exists'.mp
  intro hnone
  have hroot := (w.parent?_eq_none_iff (lt_size_of_slot? h)).mp hnone
  rw [hroot, slot?_eq_map_segment?, w.segment?_rootId] at h
  cases h

theorem mem_occupants {id p : ItemId} {slot : Slot} :
    id ∈ t.occupants p slot ↔ t.parent? id = some p ∧ t.slot? id = some slot := by
  constructor
  · exact w.occupant
  · rintro ⟨hparent, hslot⟩
    obtain ⟨_, own, hown, hmem⟩ := w.placed hparent
    cases hown.symm.trans hslot
    exact hmem

theorem trail_of_parent? {id p : ItemId} (h : t.parent? id = some p) :
    t.trail id = t.trail p ++ [id] := by
  rw [trail, w.ancestry_eq, h]
  simp [trail]

theorem trail_rootId : t.trail rootId = [rootId] := by
  rw [trail, w.ancestry_eq, w.parent?_rootId]
  rfl

theorem segmentsTo_rootId : t.segmentsTo rootId = [] := by
  simp [segmentsTo, w.trail_rootId, w.segment?_rootId]

theorem segmentsTo_of_parent? {id p : ItemId} {s : Segment} (h : t.parent? id = some p)
    (hs : t.segment? id = some s) : t.segmentsTo id = t.segmentsTo p ++ [s] := by
  simp [segmentsTo, w.trail_of_parent? h, hs]

theorem address_rootId : t.address rootId = [] := by simp [address, w.segmentsTo_rootId]

theorem address_of_parent? {id p : ItemId} {step : Step} (h : t.parent? id = some p)
    (hstep : t.step? id = some step) : t.address id = t.address p ++ [step] := by
  obtain ⟨s, hs, rfl⟩ := Option.map_eq_some_iff.mp hstep
  simp [address, w.segmentsTo_of_parent? h hs]

/-- An item is the root or hangs below another one, its step the last one of its address. -/
theorem root_or_child {id : ItemId} (hid : id < t.size) :
    id = rootId ∧ t.address id = [] ∨
      ∃ p step, t.parent? id = some p ∧ t.step? id = some step ∧
        t.address id = t.address p ++ [step] := by
  cases hp : t.parent? id with
  | none =>
      have hroot := (w.parent?_eq_none_iff hid).mp hp
      exact .inl ⟨hroot, hroot ▸ w.address_rootId⟩
  | some p =>
      obtain ⟨s, hs⟩ := w.exists_segment_of_parent? hp
      have hstep : t.step? id = some s.step := by simp [step?, hs]
      exact .inr ⟨p, s.step, rfl, hstep, w.address_of_parent? hp hstep⟩

/-- The item at the end of some segments has no branch just if they end a route. -/
theorem branch?_eq_none_of_address {id : ItemId} {segments : List Segment} (hid : id < t.size)
    (haddress : t.address id = segments.map Segment.step) :
    t.branch? id = none ↔ segments.getLast?.any Segment.endsRoute = true := by
  rw [branch?_eq_none_iff hid]
  obtain ⟨rfl, hroot⟩ | ⟨p, step, _, hstep, hlast⟩ := w.root_or_child hid
  · obtain rfl : segments = [] := by simpa [hroot] using haddress.symm
    simp [slot?_eq_map_segment?, w.segment?_rootId]
  · obtain ⟨before, after, rfl, _, hafter⟩ := List.map_eq_append_iff.mp (haddress.symm.trans hlast)
    obtain ⟨s, rfl, rfl⟩ := List.map_eq_singleton_iff.mp hafter
    rw [slot?_of_step? hstep, List.getLast?_concat, Option.any_some, Segment.endsRoute_iff,
      Option.some_inj, Option.some_inj]
    rfl

theorem exists_branch_rootId : ∃ b, t.branch? rootId = some b := by
  refine Option.ne_none_iff_exists'.mp fun hnone => ?_
  have haddress : t.address rootId = ([] : List Segment).map Segment.step := w.address_rootId
  simpa using (w.branch?_eq_none_of_address w.rootId_lt_size haddress).mp hnone

/-- The route of an item is written from its segments. -/
theorem routeOf_eq {id : ItemId} (hid : id < t.size) :
    t.routeOf id = "/" ++ Route.render (t.segmentsTo id) := by
  have spelled : ((t.trail id).drop 1).map t.spelling = (t.segmentsTo id).map Segment.render := by
    induction id using Nat.strong_induction_on with
    | _ id ih =>
        cases hp : t.parent? id with
        | none =>
            obtain rfl := (w.parent?_eq_none_iff hid).mp hp
            simp [w.trail_rootId, w.segmentsTo_rootId]
        | some p =>
            obtain ⟨s, hs⟩ := w.exists_segment_of_parent? hp
            have hlt := (w.placed hp).1
            have hne : 1 ≤ (t.trail p).length := by simp [trail, w.ancestry_eq p]
            rw [w.trail_of_parent? hp, w.segmentsTo_of_parent? hp hs,
              List.drop_append_of_le_length hne, List.map_append, List.map_append,
              ih p hlt (Nat.lt_trans hlt hid)]
            simp [spelling_of_segment? hs]
  rw [routeOf, spelled, Route.render]

/-- Items of one address have routes of one text. -/
theorem routeOf_eq_spelling {id : ItemId} (hid : id < t.size) :
    t.routeOf id = "/" ++ "/".intercalate ((t.address id).map Step.spelling) := by
  rw [w.routeOf_eq hid, Route.render, address, List.map_map]
  exact congrArg (fun texts => "/" ++ "/".intercalate texts)
    (List.map_congr_left fun s _ => s.spelling_step.symm)

/-- Siblings differ in their steps. -/
theorem eq_of_step?_eq {i j p : ItemId} (hi : t.parent? i = some p) (hj : t.parent? j = some p)
    (h : t.step? i = t.step? j) : i = j := by
  obtain ⟨s, hs⟩ := w.exists_segment_of_parent? hi
  have hstep : t.step? i = some s.step := by simp [step?, hs]
  obtain ⟨hislot, hiname⟩ := w.step?_eq_some.mp hstep
  obtain ⟨hjslot, hjname⟩ := w.step?_eq_some.mp (h ▸ hstep)
  have himem := w.mem_occupants.mpr ⟨hi, hislot⟩
  have hjmem := w.mem_occupants.mpr ⟨hj, hjslot⟩
  by_cases hslot : s.step.slot = .switchItem
  · rw [hslot] at himem hjmem
    exact List.inj_on_of_nodup_map (w.switchItems_nodup p) himem hjmem (hiname.trans hjname.symm)
  · obtain ⟨b, hb, hbi⟩ := exists_branch_of_mem_occupants himem
    simp only [occupants, hb, Option.map_some, Option.getD_some] at hjmem
    exact Branch.eq_of_mem_occupants hslot hbi hjmem

/-- An address leads to one item at most. -/
theorem eq_of_address_eq {i j : ItemId} (hi : i < t.size) (hj : j < t.size)
    (h : t.address i = t.address j) : i = j := by
  induction i using Nat.strong_induction_on generalizing j with
  | _ i ih =>
      obtain ⟨rfl, hroot⟩ | ⟨p, step, hp, hstep, haddress⟩ := w.root_or_child hi
      · obtain ⟨rfl, _⟩ | ⟨q, step', _, _, haddress'⟩ := w.root_or_child hj
        · rfl
        · rw [hroot, haddress'] at h
          simp at h
      · obtain ⟨_, hroot'⟩ | ⟨q, step', hq, hstep', haddress'⟩ := w.root_or_child hj
        · rw [haddress, hroot'] at h
          simp at h
        · rw [haddress, haddress'] at h
          obtain ⟨hparents, hlast⟩ := List.append_inj' h rfl
          have hlt := (w.placed hp).1
          have hlt' := (w.placed hq).1
          obtain rfl := ih p hlt (Nat.lt_trans hlt hi) (Nat.lt_trans hlt' hj) hparents
          cases hlast
          exact w.eq_of_step?_eq hp hq (hstep.trans hstep'.symm)

/-- The ancestors of an item have the prefixes of its address. -/
theorem mem_ancestry_iff {a id : ItemId} (ha : a < t.size) (hid : id < t.size) :
    a ∈ t.ancestry id ↔ t.address a <+: t.address id := by
  induction id using Nat.strong_induction_on with
  | _ id ih =>
      rw [mem_ancestry]
      obtain ⟨rfl, hroot⟩ | ⟨p, step, hp, hstep, haddress⟩ := w.root_or_child hid
      · rw [w.parent?_rootId, hroot, List.prefix_nil]
        constructor
        · rintro (rfl | ⟨p, hp, _⟩)
          · exact hroot
          · cases hp
        · exact fun h => .inl (w.eq_of_address_eq ha hid (h.trans hroot.symm))
      · have hlt := (w.placed hp).1
        have hup := ih p hlt (Nat.lt_trans hlt hid)
        rw [haddress, List.prefix_concat_iff, ← haddress, ← hup]
        constructor
        · rintro (rfl | ⟨q, hq, _, hmem⟩)
          · exact .inl rfl
          · cases hp.symm.trans hq
            exact .inr hmem
        · rintro (h | h)
          · exact .inl (w.eq_of_address_eq ha hid h)
          · exact .inr ⟨p, hp, hlt, h⟩

end WellFormed

/-! ## After edits -/

theorem segment?_attachSegment {parent : ItemId} {b : Branch} {s : Segment}
    (hb : t.branch? parent = some b) (i : ItemId) :
    (t.attachSegment parent s).tree.segment? i = if i = t.size then some s else t.segment? i := by
  rw [segment?, segment?, get?_attachSegment hb]
  split_ifs
  · cases s <;> rfl
  · rw [Option.bind_map]
    exact congrArg _ (funext (PathItem.segment?_withBranch _))
  · rfl

theorem segment?_enterAlias {parent id : ItemId} {aliasName : String} (i : ItemId) :
    (t.enterAlias parent id aliasName).segment? i = t.segment? i := by
  rw [segment?, segment?, get?_enterAlias, modifyBranch_eq, get?_modify]
  split_ifs <;> simp [Option.bind_map, Function.comp_def]

theorem segment?_outline (i : ItemId) : t.outline.segment? i = t.segment? i := by
  rw [segment?, segment?, get?_outline, Option.bind_map]
  exact congrArg _ (funext fun item => PathItem.segment?_withBranch Branch.outline item)

/-- The items of one tree are items of the other, in the same places. -/
structure Extends (t t' : CommandTree) : Prop where
  size_le : t.size ≤ t'.size
  parent?_eq : ∀ i < t.size, t'.parent? i = t.parent? i
  segment?_eq : ∀ i < t.size, t'.segment? i = t.segment? i

namespace Extends
variable {t' t'' : CommandTree}

theorem refl (t : CommandTree) : t.Extends t := ⟨Nat.le_refl _, fun _ _ => rfl, fun _ _ => rfl⟩

theorem trans (h : t.Extends t') (h' : t'.Extends t'') : t.Extends t'' where
  size_le := Nat.le_trans h.size_le h'.size_le
  parent?_eq i hi := (h'.parent?_eq i (Nat.lt_of_lt_of_le hi h.size_le)).trans (h.parent?_eq i hi)
  segment?_eq i hi :=
    (h'.segment?_eq i (Nat.lt_of_lt_of_le hi h.size_le)).trans (h.segment?_eq i hi)

theorem of_outline_eq (h : t'.outline = t.outline) : t.Extends t' where
  size_le := Nat.le_of_eq (by rw [← size_outline t', h, size_outline])
  parent?_eq i _ := by rw [← parent?_outline t', h, parent?_outline]
  segment?_eq i _ := by rw [← segment?_outline i, h, segment?_outline]

theorem of_edit (h : Edit t t') : t.Extends t' := by
  cases h with
  | attach hb _ _ =>
      refine ⟨by simp, fun i hi => ?_, fun i hi => ?_⟩
      · rw [parent?_attachSegment hb, if_neg (Nat.ne_of_lt hi)]
      · rw [segment?_attachSegment hb, if_neg (Nat.ne_of_lt hi)]
  | giveAlias _ _ _ _ _ _ =>
      exact ⟨by simp, fun i _ => parent?_enterAlias i, fun i _ => segment?_enterAlias i⟩
  | annotate keeps => exact of_outline_eq (outline_annotate keeps)
  | common _ _ => exact of_outline_eq (outline_enterCommon ..)

theorem of_edits (h : Edits t t') : t.Extends t' := by
  induction h with
  | refl => exact refl t
  | tail _ step ih => exact ih.trans (of_edit step)

theorem step?_eq (h : t.Extends t') {i : ItemId} (hi : i < t.size) : t'.step? i = t.step? i := by
  rw [step?, step?, h.segment?_eq i hi]

theorem ancestry_eq (h : t.Extends t') {i : ItemId} (hi : i < t.size) :
    t'.ancestry i = t.ancestry i :=
  ancestry_congr fun j hj => h.parent?_eq j (Nat.lt_of_le_of_lt hj hi)

theorem segmentsTo_eq (h : t.Extends t') {i : ItemId} (hi : i < t.size) :
    t'.segmentsTo i = t.segmentsTo i := by
  rw [segmentsTo, segmentsTo, trail, trail, h.ancestry_eq hi]
  refine List.filterMap_congr fun j hj => h.segment?_eq j ?_
  exact lt_size_of_mem_ancestry hi (List.mem_reverse.mp hj)

theorem address_eq (h : t.Extends t') {i : ItemId} (hi : i < t.size) :
    t'.address i = t.address i := by
  rw [address, address, h.segmentsTo_eq hi]

theorem standsAt (h : t.Extends t') {parent id : ItemId} {s : Segment}
    (hs : t.StandsAt parent s id) : t'.StandsAt parent s id := by
  have hid := lt_size_of_parent? hs.1
  exact ⟨(h.parent?_eq id hid).trans hs.1, (h.step?_eq hid).trans hs.2⟩

end Extends
end CommandTree
end CommandRoutes
