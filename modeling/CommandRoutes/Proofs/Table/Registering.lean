import CommandRoutes.Proofs.Table.Realization

/-!
# Registering the routes of a table

A registration meets further demands when it succeeds with a tree that realizes
them together with the earlier ones, or fails and they are not at peace. Each
step of registering an entry meets its part of the demands of the entry, and the
whole table all demands of its entries: registering it succeeds just if they are
at peace.
-/
namespace CommandRoutes

open Demand (Peaceful)

namespace CommandTree

/-- Giving an alias to a static item is decided by what the alias leads to so far. -/
theorem WellFormed.giveAlias_cases {t : CommandTree} (w : t.WellFormed) {p id : ItemId}
    {name aliasName : String} (hparent : t.parent? id = some p)
    (hslot : t.slot? id = some (.static name)) (named : checkName aliasName = .ok ()) :
    (t.literal? p aliasName = some id ∧ t.giveAlias id aliasName = ⟨t, .ok ()⟩) ∨
    (t.literal? p aliasName = none ∧
      t.giveAlias id aliasName = ⟨t.enterAlias p id aliasName, .ok ()⟩) ∨
    ((∃ other, t.literal? p aliasName = some other ∧ other ≠ id) ∧
      ∃ e, t.giveAlias id aliasName = ⟨t, .error e⟩) := by
  obtain ⟨b, hb⟩ := w.exists_branch_of_parent? hparent
  obtain ⟨item, hitem, hitemSlot⟩ := Option.bind_eq_some_iff.mp hslot
  have hitemParent : item.parent = some p := by simpa [parent?, hitem] using hparent
  have hliteral : t.literal? p aliasName = b.literalChild? aliasName := by simp [literal?, hb]
  rcases item with ⟨name, parent, kind, description, isPrivate, required, optional⟩
  obtain rfl : parent = some p := hitemParent
  cases kind with
  | static aliases branch =>
      rw [hliteral, giveAlias, named, hitem]
      simp only [branchOf_eq_ok.mpr hb]
      cases hchild : b.literalChild? aliasName with
      | none => exact .inr (.inl ⟨rfl, rfl⟩)
      | some other =>
          by_cases hsame : other = id
          · exact .inl ⟨congrArg some hsame, by simp [hsame]⟩
          · exact .inr (.inr ⟨⟨other, rfl, hsame⟩, _, by simp only [if_neg hsame]; rfl⟩)
  | root branch => cases hitemSlot
  | dynamic branch => cases hitemSlot
  | spread => cases hitemSlot
  | switch predicates => cases hitemSlot

/-- A result that comes with a tree: it realizes the demands, or they are not at peace. -/
def Met {ε α : Type} (t : CommandTree) (ds : List Demand) (tree : α → CommandTree) :
    Except ε α → Prop
  | .ok a => t.Extends (tree a) ∧ (tree a).Realizes ds
  | .error _ => ¬Peaceful ds

namespace Met
variable {ε α β : Type} {t : CommandTree} {ds ds' : List Demand} {tree : α → CommandTree}
  {tree' : β → CommandTree}

theorem of_impossible {e : ε} (h : .impossible ∈ ds) : t.Met ds tree (.error e) :=
  fun peaceful => peaceful.possible h

theorem of_extends {t' : CommandTree} {result : Except ε α} (h : t'.Met ds tree result)
    (ext : t.Extends t') : t.Met ds tree result := by
  cases result with
  | error e => exact h
  | ok a => exact ⟨ext.trans h.1, h.2⟩

theorem bind {result : Except ε α} {next : α → Except ε β} (h : t.Met ds tree result)
    (hnext : ∀ a, result = .ok a → t.Extends (tree a) → (tree a).Realizes ds →
      (tree a).Met (ds ++ ds') tree' (next a)) :
    t.Met (ds ++ ds') tree' (result >>= next) := by
  cases result with
  | error e => exact fun peaceful => h peaceful.left
  | ok a =>
      have hmet := hnext a rfl h.1 h.2
      exact hmet.of_extends h.1

theorem map {result : Except ε α} (f : α → β) (h : t.Met ds tree result)
    (heq : ∀ a, result = .ok a → tree' (f a) = tree a) : t.Met ds tree' (result.map f) := by
  cases result with
  | error e => exact h
  | ok a =>
      have hsame := heq a rfl
      change t.Extends (tree' (f a)) ∧ (tree' (f a)).Realizes ds
      rw [hsame]
      exact h

theorem bind_pure {result : Except ε α} (f : α → β) (h : t.Met ds tree result)
    (heq : ∀ a, tree' (f a) = tree a) :
    t.Met ds tree' (result >>= fun a => pure (f a)) := by
  cases result with
  | error e => exact h
  | ok a =>
      change t.Extends (tree' (f a)) ∧ (tree' (f a)).Realizes ds
      rw [heq]
      exact h

theorem mapError {ε' : Type} {result : Except ε α} (f : ε → ε') (h : t.Met ds tree result) :
    t.Met ds tree (result.mapError f) := by
  cases result with
  | error e => exact h
  | ok a => exact h

/-- Steps that each meet the demands of one entry meet those of all entries. What the steps need
of the tree, `P`, must be kept when the tree grows. -/
theorem foldlM {γ : Type} (tree' : β → CommandTree) {step : β → γ → Except ε β}
    {demands : γ → List Demand} {P : CommandTree → Prop}
    (keeps : ∀ {t t'}, P t → t.Extends t' → P t')
    (hstep : ∀ b c ds, P (tree' b) → (tree' b).Realizes ds →
      (tree' b).Met (ds ++ demands c) tree' (step b c))
    (entries : List γ) {b : β} (hP : P (tree' b)) (r : (tree' b).Realizes ds) :
    (tree' b).Met (ds ++ entries.flatMap demands) tree' (entries.foldlM step b) := by
  induction entries generalizing b ds with
  | nil =>
      rw [List.flatMap_nil, List.append_nil]
      exact ⟨.refl _, r⟩
  | cons c entries ih =>
      rw [List.flatMap_cons, ← List.append_assoc, List.foldlM_cons]
      exact (hstep b c ds hP r).bind fun b' _ ext r' => ih (keeps hP ext) r'

end Met

namespace Realizes
variable {t : CommandTree} {ds : List Demand}

theorem met (r : t.Realizes ds) {ε α : Type} {a : α} {tree : α → CommandTree} (h : tree a = t) :
    t.Met ds tree (.ok a : Except ε α) := by
  rw [Met, h]
  exact ⟨.refl t, r⟩

theorem met_of_clash (r : t.Realizes ds) {d d' : Demand} (hd : d ∈ ds) (hclash : d.Clash d')
    {ε α : Type} {tree : α → CommandTree} {e : ε} : t.Met (ds ++ [d']) tree (.error e) :=
  fun peaceful => (r.peaceful.concat_iff.mp peaceful).2 d hd hclash

/-! ## A route -/

theorem ensureSegment (r : t.Realizes ds) {parent : ItemId} {b : Branch} {s : Segment}
    (hb : t.branch? parent = some b) (named : s.WellNamed) :
    t.Met (ds ++ [.item (t.address parent) s.step]) (fun _ => (t.ensureSegment parent s).tree)
      (t.ensureSegment parent s).result := by
  have w := r.wellFormed
  have hp := lt_size_of_branch? hb
  obtain ⟨id, stands, heq⟩ | ⟨room, heq⟩ | ⟨blocked, e, heq⟩ := w.ensureSegment_cases hb named
  · rw [heq]
    refine (r.of_mem (r.item_of_child stands.1 stands.2) fun d hd hclash => ?_).met rfl
    exact w.not_blocked_of_standsAt stands ((r.blocked_iff hp).mpr ⟨d, hd, hclash⟩)
  · rw [heq]
    exact ⟨.of_edit (.attach hb named room), r.attach hb named room⟩
  · rw [heq]
    obtain ⟨d, hd, hclash⟩ := (r.blocked_iff hp).mp blocked
    exact r.met_of_clash hd hclash

theorem ensureSegments {segments : List Segment} (r : t.Realizes ds) {parent : ItemId} {b : Branch}
    (hb : t.branch? parent = some b) (ready : Route.Registrable segments) :
    t.Met (ds ++ Demand.along (t.address parent) segments)
      (fun _ => (t.ensureSegments parent segments).tree)
      (t.ensureSegments parent segments).result := by
  induction segments generalizing t ds parent b with
  | nil =>
      rw [Demand.along, List.append_nil]
      exact r.met rfl
  | cons s rest ih =>
      have first := r.ensureSegment hb ready.head
      rw [Demand.along, List.append_cons]
      cases hfirst : (t.ensureSegment parent s).result with
      | error e =>
          rw [hfirst] at first
          simp only [CommandTree.ensureSegments, Grown.andThen, hfirst]
          exact fun peaceful => first peaceful.left
      | ok id =>
          rw [hfirst] at first
          obtain ⟨ext, r'⟩ := first
          have w' := r'.wellFormed
          have stands := r.wellFormed.standsAt_of_ensureSegment hfirst
          have haddress : (t.ensureSegment parent s).tree.address id =
              t.address parent ++ [s.step] := by
            rw [w'.address_of_parent? stands.1 stands.2, ext.address_eq (lt_size_of_branch? hb)]
          rw [ensureSegments_cons_ok hfirst, ← haddress]
          have others : (t.ensureSegment parent s).tree.Met
              (ds ++ [.item (t.address parent) s.step] ++
                Demand.along ((t.ensureSegment parent s).tree.address id) rest)
              (fun _ => ((t.ensureSegment parent s).tree.ensureSegments id rest).tree)
              ((t.ensureSegment parent s).tree.ensureSegments id rest).result := by
            -- below an item that ends a route nothing is registered, since nothing is left
            cases hs : s.endsRoute with
            | true =>
                rw [ready.rest_eq_nil hs, Demand.along, List.append_nil]
                exact r'.met rfl
            | false =>
                obtain ⟨b', hb'⟩ := exists_branch_of_standsAt stands hs
                exact ih r' hb' ready.tail
          exact (others.map (id :: ·) fun _ _ => rfl).of_extends ext

/-! ## Aliases -/

theorem giveAlias (r : t.Realizes ds) {p id : ItemId} {name : String}
    (hparent : t.parent? id = some p) (hslot : t.slot? id = some (.static name))
    (aliasName : String) :
    t.Met (ds ++ Demand.ofAlias (some (t.address p, name)) aliasName)
      (fun _ => (t.giveAlias id aliasName).tree) (t.giveAlias id aliasName).result := by
  have w := r.wellFormed
  cases hnamed : checkName aliasName with
  | error e =>
      simp only [CommandTree.giveAlias, Demand.ofAlias, hnamed]
      exact .of_impossible (by simp)
  | ok u =>
      simp only [Demand.ofAlias, hnamed]
      obtain ⟨hsame, heq⟩ | ⟨hfree, heq⟩ | ⟨helsewhere, e, heq⟩ :=
        w.giveAlias_cases hparent hslot hnamed
      · rw [heq]
        split_ifs with hname
        · rw [List.append_nil]
          exact r.met rfl
        · obtain ⟨_, name', hslot', htoken⟩ := w.literal?_eq_some_iff.mp hsame
          cases hslot.symm.trans hslot'
          have halias := w.aliased?_iff.mpr ⟨hparent, ⟨name, hslot⟩, htoken.resolve_left hname⟩
          have hdemand := r.answer_iff.mpr ⟨p, id, halias, rfl, hslot⟩
          refine (r.of_mem hdemand fun d hd hclash => ?_).met rfl
          obtain ⟨other, hother, hne⟩ :=
            (r.leadsElsewhere_iff hparent hslot).mpr ⟨hname, d, hd, hclash⟩
          exact hne (Option.some.inj (hother.symm.trans hsame))
      · rw [heq]
        have hname : aliasName ≠ name := by
          rintro rfl
          cases hfree.symm.trans
            (w.literal?_eq_some_iff.mpr ⟨hparent, aliasName, hslot, .inl rfl⟩)
        rw [if_neg hname]
        have r' := r.enterAlias hparent hslot hnamed hfree
        obtain ⟨b, hb⟩ := w.exists_branch_of_parent? hparent
        obtain ⟨free, unused⟩ := literal?_eq_none.mp hfree
        exact ⟨.of_edit (.giveAlias hparent hslot hb hnamed free unused), r'⟩
      · rw [heq]
        obtain ⟨hne, d, hd, hclash⟩ := (r.leadsElsewhere_iff hparent hslot).mp helsewhere
        rw [if_neg hne]
        exact r.met_of_clash hd hclash

end Realizes

theorem isStatic_of_standsAt {t : CommandTree} {parent id : ItemId} {s : Segment}
    (stands : t.StandsAt parent s id) :
    (t.get? id).any (·.kind.isStatic) = s.staticName?.isSome := by
  have hslot := slot?_of_step? stands.2
  obtain ⟨item, hitem, hown⟩ := Option.bind_eq_some_iff.mp hslot
  have hown : item.slot? = some s.slot := hown
  rcases item with ⟨name, parent, kind, description, isPrivate, required, optional⟩
  rw [hitem]
  cases kind <;> cases s <;>
    simp_all [PathItem.slot?, Segment.slot, ItemKind.isStatic, Segment.staticName?]

/-- The last static one of the items of a chain stands where the last static segment does. -/
theorem anchor_of_chain {t : CommandTree} (w : t.WellFormed) {parent : ItemId}
    {segments : List Segment} {ids : List ItemId} (chain : t.Chain parent segments ids) :
    (Demand.anchor? (t.address parent) segments = none ∧
      ids.reverse.find? (fun id => (t.get? id).any (·.kind.isStatic)) = none) ∨
    ∃ p id name, Demand.anchor? (t.address parent) segments = some (t.address p, name) ∧
      ids.reverse.find? (fun id => (t.get? id).any (·.kind.isStatic)) = some id ∧
      t.parent? id = some p ∧ t.slot? id = some (.static name) := by
  induction chain with
  | nil => exact .inl ⟨rfl, rfl⟩
  | @cons parent id s segments ids stands _ ih =>
      rw [w.address_of_parent? stands.1 stands.2] at ih
      rw [List.reverse_cons, List.find?_append, Demand.anchor?]
      obtain ⟨hanchor, hfind⟩ | ⟨p, last, name, hanchor, hfind, hlast⟩ := ih
      · rw [hanchor, hfind]
        have hstatic := isStatic_of_standsAt stands
        cases s with
        | static name =>
            refine .inr ⟨parent, id, name, rfl, ?_, stands.1, slot?_of_step? stands.2⟩
            simp [hstatic, Segment.staticName?]
        | dynamic name => exact .inl ⟨rfl, by simp [hstatic, Segment.staticName?]⟩
        | spread name => exact .inl ⟨rfl, by simp [hstatic, Segment.staticName?]⟩
        | switch predicates => exact .inl ⟨rfl, by simp [hstatic, Segment.staticName?]⟩
      · rw [hanchor, hfind]
        exact .inr ⟨p, last, name, rfl, rfl, hlast⟩

namespace Realizes
variable {t : CommandTree} {ds : List Demand}

theorem giveAliases (r : t.Realizes ds) {segments : List Segment} {items : List ItemId}
    (chain : t.Chain rootId segments items) (aliases : List String) :
    t.Met (ds ++ aliases.flatMap (Demand.ofAlias (Demand.anchor? [] segments))) id
      (t.giveAliases items aliases) := by
  have w := r.wellFormed
  have hanchor := anchor_of_chain w chain
  rw [w.address_rootId] at hanchor
  cases aliases with
  | nil =>
      rw [List.flatMap_nil, List.append_nil, CommandTree.giveAliases, if_pos rfl]
      exact r.met rfl
  | cons first rest =>
      rw [CommandTree.giveAliases, if_neg (List.cons_ne_nil first rest)]
      obtain ⟨hnone, hfind⟩ | ⟨p, anchor, name, hsome, hfind, hparent, hslot⟩ := hanchor
      · rw [hfind, hnone]
        exact .of_impossible (by simp [Demand.ofAlias])
      · rw [hfind, hsome]
        refine Met.foldlM id (P := t.Extends) (fun h ext => h.trans ext) ?_ _ (.refl t) r
        intro t' aliasName ds' (ext : t.Extends t') (r' : t'.Realizes ds')
        have hlt := lt_size_of_parent? hparent
        have hslot' : t'.slot? anchor = some (.static name) := by
          rw [slot?_eq_map_segment?, ext.segment?_eq anchor hlt, ← slot?_eq_map_segment?, hslot]
        have hmet := r'.giveAlias ((ext.parent?_eq anchor hlt).trans hparent) hslot' aliasName
        rw [ext.address_eq (w.parent_lt_size hparent)] at hmet
        exact hmet.map _ fun _ _ => rfl

/-! ## Switches -/

theorem declareCommon (r : t.Realizes ds) {segments : List Segment} {id : ItemId}
    (hid : id < t.size) (haddress : t.address id = segments.map Segment.step) (isRequired : Bool)
    (switch : Switch) :
    t.Met (ds ++ [Demand.ofCommon segments switch])
      (fun _ => (t.declareCommon id switch (Branch.declare isRequired switch)).tree)
      (t.declareCommon id switch (Branch.declare isRequired switch)).result := by
  have hbranch := r.wellFormed.branch?_eq_none_of_address hid haddress
  cases hb : t.branch? id with
  | none =>
      rw [result_declareCommon_of_none hb, Demand.ofCommon, if_pos (hbranch.mp hb)]
      exact .of_impossible (by simp)
  | some b =>
      have hends : ¬segments.getLast?.any Segment.endsRoute = true := by
        rw [← hbranch, hb]
        simp
      rw [Demand.ofCommon, if_neg hends, ← haddress]
      obtain ⟨name, hf, hname, huse⟩ | ⟨hf, hfree⟩ := r.commonSound.find?_takenNames hb switch
      · rw [result_declareCommon hb, hf]
        obtain ⟨d, hd, hclash⟩ := (r.exists_inUse_iff hid).mp ⟨name, hname, huse⟩
        exact r.met_of_clash hd hclash
      · obtain ⟨e, heq⟩ | ⟨edit, heq⟩ := t.declareCommon_cases id isRequired switch
        · have hok : (t.declareCommon id switch (Branch.declare isRequired switch)).result = _ :=
            result_declareCommon hb
          rw [hf, heq] at hok
          cases hok
        · rw [heq]
          exact ⟨.of_edit edit, r.enterCommon hb isRequired hfree⟩

end Realizes

/-- Switches that each meet their demands meet all of them together. -/
theorem Met.addEntries {add : CommandTree → Switch → Grown Unit} {demands : Switch → List Demand}
    {P : CommandTree → Prop} (keeps : ∀ {t t'}, P t → t.Extends t' → P t')
    (hadd : ∀ {t ds} switch, P t → t.Realizes ds →
      t.Met (ds ++ demands switch) (fun _ => (add t switch).tree) (add t switch).result)
    (entries : List SwitchEntry) {t : CommandTree} {ds : List Demand} (hP : P t)
    (r : t.Realizes ds) :
    t.Met (ds ++ entries.flatMap (Demand.ofSwitch demands)) id (t.addEntries add entries) := by
  refine Met.foldlM id keeps (fun t e ds hP r => ?_) entries hP r
  cases hswitch : e.switch with
  | error f =>
      rw [Demand.ofSwitch, hswitch]
      exact .of_impossible (by simp)
  | ok switch =>
      rw [Demand.ofSwitch, hswitch]
      exact (hadd switch hP r).map _ fun _ _ => rfl

/-! ## Entries -/

namespace Realizes
variable {t : CommandTree} {ds : List Demand}

theorem annotated (r : t.Realizes ds) {id : ItemId} {f : PathItem → PathItem}
    (keeps : ∀ item, (f item).name = item.name ∧ (f item).parent = item.parent ∧
      (f item).kind = item.kind) : t.Extends (t.modify id f) ∧ (t.modify id f).Realizes ds :=
  ⟨.of_edit (.annotate keeps), r.annotate keeps⟩

theorem setDescription (r : t.Realizes ds) (id : ItemId) (text : String) :
    t.Extends (t.setDescription id text) ∧ (t.setDescription id text).Realizes ds :=
  r.annotated fun _ => ⟨rfl, rfl, rfl⟩

theorem setPrivate (r : t.Realizes ds) (id : ItemId) (isPrivate : Bool) :
    t.Extends (t.setPrivate id isPrivate) ∧ (t.setPrivate id isPrivate).Realizes ds :=
  r.annotated fun _ => ⟨rfl, rfl, rfl⟩

/-- The four kinds of switches of an entry, on the item at the end of its segments. -/
theorem addSwitches {t' : CommandTree} (r : t'.Realizes ds) (ext : t.Extends t') {item : ItemId}
    {segments : List Segment} (hid : item < t.size)
    (haddress : t.address item = segments.map Segment.step) (entries : SwitchEntries) :
    t.Met (ds ++ (entries.required.flatMap (Demand.ofSwitch fun _ => []) ++
        (entries.optional.flatMap (Demand.ofSwitch fun _ => []) ++
          (entries.commonRequired.flatMap (Demand.ofSwitch fun s => [.ofCommon segments s]) ++
            entries.commonOptional.flatMap (Demand.ofSwitch fun s => [.ofCommon segments s])))))
      Prod.fst (do
        let t ← t'.addEntries (fun t s => ⟨t.declareRequired item s, .ok ()⟩) entries.required
        let t ← t.addEntries (fun t s => ⟨t.declareOptional item s, .ok ()⟩) entries.optional
        let t ← t.addEntries (fun t s => t.declareCommonRequired item s) entries.commonRequired
        let t ← t.addEntries (fun t s => t.declareCommonOptional item s) entries.commonOptional
        return (t, item)) := by
  let P : CommandTree → Prop := fun t =>
    item < t.size ∧ t.address item = segments.map Segment.step
  have keeps : ∀ {t t' : CommandTree}, P t → t.Extends t' → P t' := fun h ext =>
    ⟨Nat.lt_of_lt_of_le h.1 ext.size_le, (ext.address_eq h.1).trans h.2⟩
  have own : ∀ {t : CommandTree} {ds : List Demand} {f : PathItem → PathItem}, t.Realizes ds →
      (∀ item, (f item).name = item.name ∧ (f item).parent = item.parent ∧
        (f item).kind = item.kind) →
      t.Met (ds ++ []) (fun _ => t.modify item f) (.ok () : Except Fault Unit) := by
    intro t ds f r hf
    rw [List.append_nil]
    exact r.annotated hf
  have h : P t' := keeps ⟨hid, haddress⟩ ext
  refine Met.of_extends ?_ ext
  rw [← List.append_assoc]
  refine (Met.addEntries keeps ?_ entries.required h r).bind fun t₁ _ ext₁ r₁ => ?_
  · exact fun switch _ r => own r fun _ => ⟨rfl, rfl, rfl⟩
  have h₁ : P t₁ := keeps h ext₁
  rw [← List.append_assoc]
  refine (Met.addEntries keeps ?_ entries.optional h₁ r₁).bind fun t₂ _ ext₂ r₂ => ?_
  · exact fun switch _ r => own r fun _ => ⟨rfl, rfl, rfl⟩
  have h₂ : P t₂ := keeps h₁ ext₂
  rw [← List.append_assoc]
  refine (Met.addEntries keeps ?_ entries.commonRequired h₂ r₂).bind fun t₃ _ ext₃ r₃ => ?_
  · exact fun switch h r => r.declareCommon h.1 h.2 true switch
  refine Met.bind_pure _ (Met.addEntries keeps ?_ entries.commonOptional (keeps h₂ ext₃) r₃)
    fun _ => rfl
  exact fun switch h r => r.declareCommon h.1 h.2 false switch

theorem addEntry (r : t.Realizes ds) (e : RouteEntry) :
    t.Met (ds ++ e.demands) Prod.fst (t.addEntry e) := by
  have w := r.wellFormed
  rw [CommandTree.addEntry, RouteEntry.demands, ensureRoute]
  cases hread : Route.read e.path with
  | error f => exact .of_impossible (by simp)
  | ok segments =>
      obtain ⟨b, hb⟩ := w.exists_branch_rootId
      have route := r.ensureSegments hb (Route.registrable_of_read hread)
      rw [w.address_rootId] at route
      simp only [List.append_assoc]
      rw [← List.append_assoc]
      refine route.bind fun items hitems _ r => ?_
      have chain := w.chain_of_ensureSegments hitems
      -- from here on only the place of the last item in the tree matters
      generalize (t.ensureSegments rootId segments).tree = t at r chain
      have hid : items.getLast?.getD rootId < t.size := by
        cases hlast : items.getLast? with
        | none => exact r.wellFormed.rootId_lt_size
        | some id => exact chain.lt_size (List.mem_of_getLast? hlast)
      have haddress := chain.address r.wellFormed
      rw [r.wellFormed.address_rootId, List.nil_append] at haddress
      rw [← List.append_assoc]
      refine (r.giveAliases chain e.aliases).bind fun t' _ (ext : t.Extends t') r => ?_
      have hid' := Nat.lt_of_lt_of_le hid ext.size_le
      have haddress' := (ext.address_eq hid).trans haddress
      generalize items.getLast?.getD rootId = item at hid' haddress'
      cases e.description with
      | none =>
          cases e.isPrivate with
          | false => exact r.addSwitches (.refl t') hid' haddress' e.switches
          | true =>
              obtain ⟨ext', r'⟩ := r.setPrivate item true
              exact r'.addSwitches ext' hid' haddress' e.switches
      | some text =>
          obtain ⟨ext', r'⟩ := r.setDescription item text
          cases e.isPrivate with
          | false => exact r'.addSwitches ext' hid' haddress' e.switches
          | true =>
              obtain ⟨ext'', r''⟩ := r'.setPrivate item true
              exact r''.addSwitches (ext'.trans ext'') hid' haddress' e.switches

end Realizes
end CommandTree

namespace Dispatcher
variable {m : Type → Type} [Monad m]

theorem met_addEntry {d : Dispatcher m} {ds : List Demand} (r : d.tree.Realizes ds)
    (e : RouteEntry) : d.tree.Met (ds ++ e.demands) Dispatcher.tree (d.addEntry e) := by
  refine (r.addEntry e).map _ fun a _ => ?_
  cases e.handler <;> rfl

/-- A list of entries is registered just if their demands are at peace. -/
theorem met_ofEntries (options : Options) (entries : List RouteEntry) :
    CommandTree.new.Met (entries.flatMap RouteEntry.demands) Dispatcher.tree
      (ofEntries options entries : Except TableFault (Dispatcher m)) := by
  have empty : ({ options } : Dispatcher m).tree.Realizes [] := .new
  exact CommandTree.Met.foldlM (P := fun _ => True) Dispatcher.tree (fun h _ => h)
    (fun d e ds _ r => (met_addEntry r e).mapError _) entries trivial empty

end Dispatcher
end CommandRoutes
