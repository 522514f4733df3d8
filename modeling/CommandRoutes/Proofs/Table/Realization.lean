import CommandRoutes.Proofs.Matching.Walks
import CommandRoutes.Proofs.Table.Demands
import CommandRoutes.Proofs.Tree.CommonNames
import CommandRoutes.Proofs.Tree.Ensuring

/-!
# Trees that meet demands

A tree realizes a list of demands when they are at peace and it holds what they
ask for and nothing else: items, aliases and names of common switches. Whatever
stands in the way of one more segment, alias or common switch is then a demand
that clashes with it, so that a registration on such a tree succeeds just if the
demands stay at peace, and the new tree realizes all of them.
-/
namespace CommandRoutes

open Demand (Peaceful)

namespace CommandTree

structure Realizes (t : CommandTree) (ds : List Demand) : Prop where
  wellFormed : t.WellFormed
  commonSound : t.CommonSound
  peaceful : Peaceful ds
  /-- The items demanded are those below the root. -/
  item_iff : ∀ {above step}, .item above step ∈ ds ↔
    ∃ p id, t.parent? id = some p ∧ t.address p = above ∧ t.step? id = some step
  answer_iff : ∀ {above name token}, .answer above name token ∈ ds ↔
    ∃ p id, t.aliased? p token = some id ∧ t.address p = above ∧
      t.slot? id = some (.static name)
  common_iff : ∀ {place name}, (∃ names, .common place names ∈ ds ∧ name ∈ names) ↔
    ∃ id, t.address id = place ∧ name ∈ t.commonNames id

variable {t : CommandTree}

theorem WellFormed.lt_size_of_aliased? (w : t.WellFormed) {p id : ItemId} {token : String}
    (h : t.aliased? p token = some id) : p < t.size :=
  w.parent_lt_size (w.aliased?_iff.mp h).1

theorem commonNames_attachSegment {parent : ItemId} {b : Branch} {s : Segment}
    (hb : t.branch? parent = some b) (i : ItemId) :
    (t.attachSegment parent s).tree.commonNames i = t.commonNames i := by
  have same : (t.attachSegment parent s).tree.commonSwitches i = t.commonSwitches i := by
    refine getD_attachSegment hb rfl (fun slot _ _ => ?_) i
    cases slot <;> rfl
  rw [commonNames, commonNames, same]

theorem commonNames_enterAlias {parent id : ItemId} {aliasName : String} (i : ItemId) :
    (t.enterAlias parent id aliasName).commonNames i = t.commonNames i := by
  have same : (t.enterAlias parent id aliasName).commonSwitches i = t.commonSwitches i :=
    getD_enterAlias (fun _ => rfl) i
  rw [commonNames, commonNames, same]

/-- Names of common switches stay in use where they were when only other things are added. -/
theorem Extends.commonName_iff {t' : CommandTree} (ext : t.Extends t')
    (hnames : ∀ i, t'.commonNames i = t.commonNames i) {place : List Step} {name : String} :
    (∃ id, t'.address id = place ∧ name ∈ t'.commonNames id) ↔
      ∃ id, t.address id = place ∧ name ∈ t.commonNames id := by
  refine exists_congr fun i => ?_
  rw [hnames]
  refine and_congr_left fun hname => ?_
  rw [ext.address_eq (lt_size_of_mem_commonNames hname)]

namespace Realizes
variable {ds : List Demand}

theorem new : CommandTree.new.Realizes [] := by
  have hparent : ∀ id, CommandTree.new.parent? id = none := by
    intro id
    cases id <;> rfl
  have halias : ∀ id token, CommandTree.new.aliased? id token = none := by
    intro id token
    cases id <;> rfl
  have hnames : ∀ id, CommandTree.new.commonNames id = [] := by
    intro id
    cases id <;> rfl
  refine ⟨.new, .new, .nil, ?_, ?_, ?_⟩
  · simp [hparent]
  · simp [halias]
  · simp [hnames]

variable (r : t.Realizes ds)
include r

/-- Only membership and peace matter. -/
theorem of_mem_iff {ds' : List Demand} (peaceful : Peaceful ds') (h : ∀ d, d ∈ ds' ↔ d ∈ ds) :
    t.Realizes ds' where
  wellFormed := r.wellFormed
  commonSound := r.commonSound
  peaceful := peaceful
  item_iff := (h _).trans r.item_iff
  answer_iff := (h _).trans r.answer_iff
  common_iff := (exists_congr fun _ => and_congr_left fun _ => h _).trans r.common_iff

theorem of_mem {d : Demand} (hd : d ∈ ds) (free : ∀ d' ∈ ds, ¬d'.Clash d) :
    t.Realizes (ds ++ [d]) := by
  refine r.of_mem_iff (r.peaceful.concat_iff.mpr ⟨?_, free⟩) fun d' => ?_
  · rintro rfl
    exact r.peaceful.possible hd
  · rw [List.mem_append, List.mem_singleton, or_iff_left_of_imp]
    rintro rfl
    exact hd

theorem item_of_child {p id : ItemId} {step : Step} (hp : t.parent? id = some p)
    (hstep : t.step? id = some step) : .item (t.address p) step ∈ ds :=
  r.item_iff.mpr ⟨p, id, hp, rfl, hstep⟩

theorem child_of_item {p : ItemId} {step : Step} (hp : p < t.size)
    (h : .item (t.address p) step ∈ ds) :
    ∃ id, t.parent? id = some p ∧ t.step? id = some step := by
  obtain ⟨q, id, hq, haddress, hstep⟩ := r.item_iff.mp h
  have w := r.wellFormed
  obtain rfl := w.eq_of_address_eq (w.parent_lt_size hq) hp haddress
  exact ⟨id, hq, hstep⟩

theorem aliased_of_answer {p : ItemId} {name token : String} (hp : p < t.size)
    (h : .answer (t.address p) name token ∈ ds) :
    ∃ id, t.aliased? p token = some id ∧ t.slot? id = some (.static name) := by
  obtain ⟨q, id, halias, haddress, hslot⟩ := r.answer_iff.mp h
  have w := r.wellFormed
  obtain rfl := w.eq_of_address_eq (w.lt_size_of_aliased? halias) hp haddress
  exact ⟨id, halias, hslot⟩

/-! ## One more segment -/

variable {parent : ItemId} {b : Branch} {s : Segment}

theorem blocked_iff (hp : parent < t.size) :
    s.Blocked t parent ↔ ∃ d ∈ ds, d.Clash (.item (t.address parent) s.step) := by
  have w := r.wellFormed
  constructor
  · rintro (⟨hslot, other, hother, hne⟩ | ⟨name, other, rfl, halias⟩)
    · obtain ⟨hparent, hown⟩ := w.occupant hother
      have hstep : t.step? other = some ⟨s.slot, t.name other⟩ := w.step?_eq_some.mpr ⟨hown, rfl⟩
      exact ⟨_, r.item_of_child hparent hstep, rfl, hslot, rfl, hne⟩
    · obtain ⟨_, ⟨name', hslot⟩, _⟩ := w.aliased?_iff.mp halias
      exact ⟨_, r.answer_iff.mpr ⟨parent, other, halias, rfl, hslot⟩, rfl, rfl⟩
  · rintro ⟨d, hd, hclash⟩
    cases d with
    | item above step =>
        obtain ⟨rfl, hslot, hsame, hne⟩ := hclash
        obtain ⟨id, hparent, hstep⟩ := r.child_of_item hp hd
        obtain ⟨hown, hname⟩ := w.step?_eq_some.mp hstep
        have hsame : step.slot = s.slot := hsame
        rw [hsame] at hslot hown
        exact .inl ⟨hslot, id, w.mem_occupants.mpr ⟨hparent, hown⟩, hname ▸ hne⟩
    | answer above name token =>
        obtain ⟨rfl, hslot⟩ := hclash
        obtain ⟨id, halias, _⟩ := r.aliased_of_answer hp hd
        exact .inr ⟨token, id, Segment.slot_eq_static.mp hslot, halias⟩
    | common place names => exact hclash.elim
    | impossible => exact hclash.elim

theorem attach (hb : t.branch? parent = some b) (named : s.WellNamed) (room : s.HasRoom t parent) :
    (t.attachSegment parent s).tree.Realizes (ds ++ [.item (t.address parent) s.step]) := by
  have w := r.wellFormed
  have hp := lt_size_of_branch? hb
  have edit : Edit t (t.attachSegment parent s).tree := .attach hb named room
  have ext := Extends.of_edit edit
  have free : ∀ d ∈ ds, ¬d.Clash (.item (t.address parent) s.step) := fun d hd hclash =>
    not_blocked_of_hasRoom room ((r.blocked_iff hp).mpr ⟨d, hd, hclash⟩)
  have hsegment := segment?_attachSegment (s := s) hb
  refine ⟨w.attach hb room, r.commonSound.edit w edit,
    r.peaceful.concat_iff.mpr ⟨by simp, free⟩, ?_, ?_, ?_⟩
  · -- the new item is the last one, and those before it stand where they did
    intro above step
    rw [List.mem_append, List.mem_singleton, r.item_iff]
    constructor
    · rintro (⟨p, id, hparent, haddress, hstep⟩ | heq)
      · have hid := lt_size_of_parent? hparent
        refine ⟨p, id, (ext.parent?_eq id hid).trans hparent, ?_, (ext.step?_eq hid).trans hstep⟩
        rw [ext.address_eq (w.parent_lt_size hparent), haddress]
      · cases heq
        refine ⟨parent, t.size, ?_, ext.address_eq hp, ?_⟩
        · rw [parent?_attachSegment hb, if_pos rfl]
        · rw [step?, hsegment, if_pos rfl]
          rfl
    · rintro ⟨p, id, hparent, haddress, hstep⟩
      rw [parent?_attachSegment hb] at hparent
      rw [step?, hsegment] at hstep
      split_ifs at hparent hstep with hnew
      · cases hparent
        cases hstep
        rw [← haddress, ext.address_eq hp]
        exact .inr rfl
      · rw [ext.address_eq (w.parent_lt_size hparent)] at haddress
        exact .inl ⟨p, id, hparent, haddress, hstep⟩
  · intro above name token
    simp only [List.mem_append, List.mem_singleton, reduceCtorEq, or_false, r.answer_iff,
      aliased?_attachSegment hb]
    refine exists_congr fun p => exists_congr fun id => and_congr_right fun halias => ?_
    have hid := lt_size_of_parent? (w.aliased?_iff.mp halias).1
    rw [ext.address_eq (w.lt_size_of_aliased? halias), slot?_attachSegment hb,
      if_neg (Nat.ne_of_lt hid)]
  · intro place name
    simp only [List.mem_append, List.mem_singleton, reduceCtorEq, or_false]
    exact r.common_iff.trans (ext.commonName_iff (commonNames_attachSegment hb)).symm

/-! ## One more alias -/

section
variable {id : ItemId} {name aliasName : String} (hparent : t.parent? id = some parent)
  (hslot : t.slot? id = some (.static name))
include hparent hslot

/-- Another child that the alias leads to is demanded in one way or the other. -/
theorem leadsElsewhere_iff :
    (∃ other, t.literal? parent aliasName = some other ∧ other ≠ id) ↔
      aliasName ≠ name ∧
        ∃ d ∈ ds, d.Clash (.answer (t.address parent) name aliasName) := by
  have w := r.wellFormed
  have hp := w.parent_lt_size hparent
  have unique : ∀ {other}, t.parent? other = some parent → t.slot? other = some (.static name) →
      other = id := by
    intro other hother hsame
    refine w.eq_of_step?_eq hother hparent ?_
    rw [step?_of_static hsame, step?_of_static hslot]
  constructor
  · rintro ⟨other, hliteral, hne⟩
    obtain ⟨hother, name', hslot', htoken⟩ := w.literal?_eq_some_iff.mp hliteral
    have hname : name' ≠ name := fun h => hne (unique hother (h ▸ hslot'))
    rcases htoken with rfl | halias
    · refine ⟨hname, ?_⟩
      have hstep : t.step? other = some ⟨.static aliasName, t.name other⟩ :=
        w.step?_eq_some.mpr ⟨hslot', rfl⟩
      exact ⟨_, r.item_of_child hother hstep, rfl, rfl⟩
    · have haliased := w.aliased?_iff.mpr ⟨hother, ⟨name', hslot'⟩, halias⟩
      refine ⟨?_, _, r.answer_iff.mpr ⟨parent, other, haliased, rfl, hslot'⟩, rfl, rfl, hname⟩
      -- the name of a child is no alias beside it
      rintro rfl
      have hmem := w.mem_occupants.mpr ⟨hparent, hslot⟩
      rw [w.alias_free haliased] at hmem
      cases hmem
  · rintro ⟨hne, d, hd, hclash⟩
    cases d with
    | item above step =>
        obtain ⟨rfl, hstatic⟩ := hclash
        obtain ⟨other, hother, hstep⟩ := r.child_of_item hp hd
        have hslot' := (w.step?_eq_some.mp hstep).1
        rw [hstatic] at hslot'
        refine ⟨other, w.literal?_eq_some_iff.mpr ⟨hother, aliasName, hslot', .inl rfl⟩, ?_⟩
        rintro rfl
        cases hslot.symm.trans hslot'
        exact hne rfl
    | answer above name' token =>
        obtain ⟨rfl, rfl, hname⟩ := hclash
        obtain ⟨other, haliased, hslot'⟩ := r.aliased_of_answer hp hd
        obtain ⟨hother, _, halias⟩ := w.aliased?_iff.mp haliased
        refine ⟨other, w.literal?_eq_some_iff.mpr ⟨hother, name', hslot', .inr halias⟩, ?_⟩
        rintro rfl
        cases hslot.symm.trans hslot'
        exact hname rfl
    | common place names => exact hclash.elim
    | impossible => exact hclash.elim

theorem enterAlias (named : checkName aliasName = .ok ())
    (hliteral : t.literal? parent aliasName = none) :
    (t.enterAlias parent id aliasName).Realizes
      (ds ++ [.answer (t.address parent) name aliasName]) := by
  have w := r.wellFormed
  obtain ⟨b, hb⟩ := w.exists_branch_of_parent? hparent
  obtain ⟨free, unused⟩ := literal?_eq_none.mp hliteral
  have edit : Edit t (t.enterAlias parent id aliasName) :=
    .giveAlias hparent hslot hb named free unused
  have ext := Extends.of_edit edit
  have apart : ∀ d ∈ ds, ¬d.Clash (.answer (t.address parent) name aliasName) := by
    intro d hd hclash
    have hne : aliasName ≠ name := by
      rintro rfl
      have hmem := w.mem_occupants.mpr ⟨hparent, hslot⟩
      rw [free] at hmem
      cases hmem
    obtain ⟨other, hother, _⟩ := (r.leadsElsewhere_iff hparent hslot).mpr ⟨hne, d, hd, hclash⟩
    cases hliteral.symm.trans hother
  refine ⟨w.edit edit, r.commonSound.edit w edit,
    r.peaceful.concat_iff.mpr ⟨by simp, apart⟩, ?_, ?_, ?_⟩
  · intro above step
    simp only [List.mem_append, List.mem_singleton, reduceCtorEq, or_false, r.item_iff,
      parent?_enterAlias]
    refine exists_congr fun p => exists_congr fun i => and_congr_right fun hi => ?_
    rw [ext.address_eq (w.parent_lt_size hi), ext.step?_eq (lt_size_of_parent? hi)]
  · intro above name' token
    rw [List.mem_append, List.mem_singleton, r.answer_iff]
    simp only [aliased?_enterAlias hb, slot?_enterAlias]
    constructor
    · rintro (⟨p, i, halias, haddress, hown⟩ | heq)
      · refine ⟨p, i, ?_, ?_, hown⟩
        · have hother : ¬(p = parent ∧ token = aliasName) := by
            rintro ⟨rfl, rfl⟩
            cases unused.symm.trans halias
          rw [if_neg hother, halias]
        · rw [ext.address_eq (w.lt_size_of_aliased? halias), haddress]
      · cases heq
        exact ⟨parent, id, by simp, ext.address_eq (w.parent_lt_size hparent), hslot⟩
    · rintro ⟨p, i, halias, haddress, hown⟩
      split_ifs at halias with hhere
      · obtain ⟨rfl, rfl⟩ := hhere
        cases halias
        cases hslot.symm.trans hown
        rw [← haddress, ext.address_eq (w.parent_lt_size hparent)]
        exact .inr rfl
      · rw [ext.address_eq (w.lt_size_of_aliased? halias)] at haddress
        exact .inl ⟨p, i, halias, haddress, hown⟩
  · intro place name'
    simp only [List.mem_append, List.mem_singleton, reduceCtorEq, or_false]
    exact r.common_iff.trans (ext.commonName_iff commonNames_enterAlias).symm

end

/-! ## One more common switch -/

theorem commonNameInUse_iff {id : ItemId} (hid : id < t.size) {name : String} :
    t.CommonNameInUse id name ↔ ∃ place names, .common place names ∈ ds ∧
      (place <+: t.address id ∨ t.address id <+: place) ∧ name ∈ names := by
  have w := r.wellFormed
  constructor
  · rintro ⟨i, hrelated, hname⟩
    have hi := lt_size_of_mem_commonNames hname
    rw [w.mem_ancestry_iff hi hid, w.mem_ancestry_iff hid hi] at hrelated
    obtain ⟨names, hmem, hname⟩ := r.common_iff.mpr ⟨i, rfl, hname⟩
    exact ⟨_, names, hmem, hrelated, hname⟩
  · rintro ⟨place, names, hmem, hrelated, hname⟩
    obtain ⟨i, rfl, hname⟩ := r.common_iff.mp ⟨names, hmem, hname⟩
    have hi := lt_size_of_mem_commonNames hname
    rw [← w.mem_ancestry_iff hi hid, ← w.mem_ancestry_iff hid hi] at hrelated
    exact ⟨i, hrelated, hname⟩

theorem exists_inUse_iff {id : ItemId} (hid : id < t.size) {names : List String} :
    (∃ name ∈ names, t.CommonNameInUse id name) ↔
      ∃ d ∈ ds, d.Clash (.common (t.address id) names) := by
  constructor
  · rintro ⟨name, hname, huse⟩
    obtain ⟨place, names', hmem, hrelated, hname'⟩ := (r.commonNameInUse_iff hid).mp huse
    exact ⟨_, hmem, hrelated, fun hdisjoint => hdisjoint hname' hname⟩
  · rintro ⟨d, hd, hclash⟩
    cases d with
    | item above step => exact hclash.elim
    | answer above name token => exact hclash.elim
    | common place names' =>
        obtain ⟨hrelated, hshared⟩ := hclash
        simp only [List.Disjoint, not_forall] at hshared
        obtain ⟨name, hname', hname, _⟩ := hshared
        exact ⟨name, hname, (r.commonNameInUse_iff hid).mpr ⟨place, names', hd, hrelated, hname'⟩⟩
    | impossible => exact hclash.elim

/-- The outline and the names of the common switches are all that matters. -/
theorem of_outline_eq {t' : CommandTree} {ds' : List Demand} (h : t'.outline = t.outline)
    (commonSound : t'.CommonSound) (peaceful : Peaceful ds')
    (other : ∀ d, (∀ place names, d ≠ .common place names) → (d ∈ ds' ↔ d ∈ ds))
    (common_iff : ∀ {place name}, (∃ names, .common place names ∈ ds' ∧ name ∈ names) ↔
      ∃ id, t.address id = place ∧ name ∈ t'.commonNames id) : t'.Realizes ds' := by
  have w := r.wellFormed
  have ext := Extends.of_outline_eq h
  have ext' := Extends.of_outline_eq h.symm
  have hparent : ∀ i, t'.parent? i = t.parent? i := fun i => by
    rw [← parent?_outline t', h, parent?_outline]
  have haliased : ∀ i token, t'.aliased? i token = t.aliased? i token := fun i token => by
    rw [← aliased?_outline t', h, aliased?_outline]
  have hslot : ∀ i, t'.slot? i = t.slot? i := fun i => by
    rw [← slot?_outline t', h, slot?_outline]
  refine ⟨w.of_outline_eq h, commonSound, peaceful, ?_, ?_, ?_⟩
  · intro above step
    rw [other _ (by simp), r.item_iff]
    refine exists_congr fun p => exists_congr fun id => ?_
    rw [hparent]
    refine and_congr_right fun hp => ?_
    rw [ext.address_eq (w.parent_lt_size hp), ext.step?_eq (lt_size_of_parent? hp)]
  · intro above name token
    rw [other _ (by simp), r.answer_iff]
    refine exists_congr fun p => exists_congr fun id => ?_
    rw [haliased, hslot]
    refine and_congr_right fun halias => ?_
    rw [ext.address_eq (w.lt_size_of_aliased? halias)]
  · intro place name
    rw [common_iff]
    refine exists_congr fun id => and_congr_left fun hname => ?_
    rw [ext'.address_eq (lt_size_of_mem_commonNames hname)]

theorem enterCommon {id : ItemId} {switch : Switch} (hb : t.branch? id = some b)
    (isRequired : Bool) (free : ∀ name ∈ switch.names, ¬t.CommonNameInUse id name) :
    (t.enterCommon id isRequired switch).Realizes
      (ds ++ [.common (t.address id) switch.names]) := by
  have hid := lt_size_of_branch? hb
  have apart : ∀ d ∈ ds, ¬d.Clash (.common (t.address id) switch.names) := by
    intro d hd hclash
    obtain ⟨name, hname, huse⟩ := (r.exists_inUse_iff hid).mpr ⟨d, hd, hclash⟩
    exact free name hname huse
  have untaken : ∀ name ∈ switch.names, name ∉ t.takenNames id b := fun name hname htaken =>
    free name hname ((r.commonSound.mem_takenNames hb).mp htaken)
  have sound : (t.enterCommon id isRequired switch).CommonSound :=
    r.commonSound.enterCommon r.wellFormed hb untaken
  refine r.of_outline_eq (outline_enterCommon ..) sound
    (r.peaceful.concat_iff.mpr ⟨by simp, apart⟩) (fun d hd => ?_) ?_
  · simp [hd]
  · intro place name
    simp only [mem_commonNames_enterCommon hb]
    constructor
    · rintro ⟨names, hmem, hname⟩
      rcases List.mem_append.mp hmem with hmem | hmem
      · obtain ⟨i, haddress, hname⟩ := r.common_iff.mp ⟨names, hmem, hname⟩
        exact ⟨i, haddress, .inl hname⟩
      · cases List.mem_singleton.mp hmem
        exact ⟨id, rfl, .inr ⟨rfl, hname⟩⟩
    · rintro ⟨i, haddress, hname | ⟨rfl, hname⟩⟩
      · obtain ⟨names, hmem, hname⟩ := r.common_iff.mpr ⟨i, haddress, hname⟩
        exact ⟨names, List.mem_append_left _ hmem, hname⟩
      · exact ⟨switch.names, by simp [haddress], hname⟩

/-- Descriptions, privacy and an item's own switches are not demanded. -/
theorem annotate {id : ItemId} {f : PathItem → PathItem}
    (keeps : ∀ item, (f item).name = item.name ∧ (f item).parent = item.parent ∧
      (f item).kind = item.kind) : (t.modify id f).Realizes ds := by
  have hnames : ∀ i, (t.modify id f).commonNames i = t.commonNames i := fun i => by
    rw [commonNames, commonNames, commonSwitches, commonSwitches,
      branch?_annotate fun item => (keeps item).2.2]
  refine r.of_outline_eq (outline_annotate keeps)
    (r.commonSound.edit r.wellFormed (.annotate keeps)) r.peaceful (fun _ _ => Iff.rfl) ?_
  simp only [hnames]
  exact r.common_iff

end Realizes
end CommandTree
end CommandRoutes
