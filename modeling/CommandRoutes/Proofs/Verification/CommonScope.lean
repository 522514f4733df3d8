import CommandRoutes.Proofs.Tree.CommonNames
import CommandRoutes.Proofs.Verification.Asking
import CommandRoutes.Proofs.Verification.Merging

/-!
# How far common switches reach

What counts at an item is read off the item, off its parent if it is a switch item, and off its
ancestors. A common switch is therefore not seen at the items that are not below its branch: what
is supplied there is verified and merged as before. Below its branch it counts at every item of
whatever kind, also at the items that are added later, for no change takes a common switch away.
-/
namespace CommandRoutes.CommandTree

/-! ## Outside the subtree -/

section
variable {t : CommandTree} {id : ItemId} {b : Branch} {isRequired : Bool} {switch : Switch}

theorem holder?_of_outline_eq {t' : CommandTree} (h : t'.outline = t.outline) (i : ItemId) :
    t'.holder? i = t.holder? i := by
  rw [holder?, holder?, ← slot?_outline t', ← parent?_outline t', h, slot?_outline,
    parent?_outline]

theorem askedIds_of_outline_eq {t' : CommandTree} (h : t'.outline = t.outline) (i : ItemId) :
    t'.askedIds i = t.askedIds i := by
  have hpredicates : t'.predicates? = t.predicates? := by
    funext item
    rw [← predicates?_outline t', h, predicates?_outline]
  rw [askedIds, askedIds, ← occupants_outline t', h, occupants_outline, hpredicates]

theorem ownDeclarations_modifyBranch {f : Branch → Branch} (i : ItemId) :
    (t.modifyBranch id f).ownDeclarations i = t.ownDeclarations i := by
  rw [ownDeclarations, ownDeclarations, modifyBranch_eq, get?_modify]
  split_ifs
  · rw [Option.map_map]
    rfl
  · rfl

theorem ownDeclarations_recordNames (names : List String) (ids : List ItemId) (i : ItemId) :
    (t.recordNames names ids).ownDeclarations i = t.ownDeclarations i := by
  induction ids generalizing t with
  | nil => rfl
  | cons id ids ih => exact ih.trans (ownDeclarations_modifyBranch i)

theorem ownDeclarations_enterCommon (i : ItemId) :
    (t.enterCommon id isRequired switch).ownDeclarations i = t.ownDeclarations i :=
  (ownDeclarations_recordNames _ _ i).trans (ownDeclarations_modifyBranch i)

theorem commonDeclarations_enterCommon (hb : t.branch? id = some b) (i : ItemId) :
    (t.enterCommon id isRequired switch).commonDeclarations i =
      if i = id then Declaration.ofSets (b.declare isRequired switch).commonRequired
        (b.declare isRequired switch).commonOptional
      else t.commonDeclarations i :=
  getD_enterCommon (fun _ _ => rfl) hb i

theorem mem_commonDeclarations_enterCommon (hb : t.branch? id = some b) {i : ItemId}
    {d : Declaration} :
    d ∈ (t.enterCommon id isRequired switch).commonDeclarations i ↔
      d ∈ t.commonDeclarations i ∨ i = id ∧ d = ⟨switch, isRequired⟩ := by
  rw [commonDeclarations_enterCommon hb]
  split_ifs with hi
  · subst hi
    cases isRequired <;>
      simp [commonDeclarations, hb, Branch.declare, Declaration.ofSets, Switches.insert, or_comm,
        or_assoc, eq_comm]
  · simp [hi]

theorem reachable_enterCommon (hb : t.branch? id = some b) {m : ItemId}
    (outside : id ∉ t.ancestry m) :
    (t.enterCommon id isRequired switch).reachable m = t.reachable m := by
  have houtline := t.outline_enterCommon id isRequired switch
  have hown : (t.enterCommon id isRequired switch).ownDeclarations = t.ownDeclarations :=
    funext ownDeclarations_enterCommon
  have hcommon : (t.ancestry m).flatMap (t.enterCommon id isRequired switch).commonDeclarations =
      (t.ancestry m).flatMap t.commonDeclarations := by
    refine List.flatMap_congr fun a ha => ?_
    have hne : a ≠ id := fun heq => outside (heq ▸ ha)
    rw [commonDeclarations_enterCommon hb, if_neg hne]
  rw [reachable, reachable, declared, declared, hown, holder?_of_outline_eq houtline,
    ancestry_enterCommon, hcommon, askedIds_of_outline_eq houtline]

theorem switchTables_enterCommon (hb : t.branch? id = some b) {m : ItemId}
    (outside : id ∉ t.ancestry m) :
    (t.enterCommon id isRequired switch).switchTables m = t.switchTables m := by
  rw [switchTables_eq, switchTables_eq, reachable_enterCommon hb outside]

end

/-! ## Inside the subtree -/

section
variable {t t' : CommandTree} {id : ItemId} {d : Declaration}

theorem mem_commonDeclarations_of_edit (edit : Edit t t') (hd : d ∈ t.commonDeclarations id) :
    d ∈ t'.commonDeclarations id := by
  cases edit with
  | @attach parent b s hb _ _ =>
      have hsame : (t.attachSegment parent s).tree.commonDeclarations id =
          t.commonDeclarations id :=
        getD_attachSegment hb rfl (fun slot _ _ => by cases slot <;> rfl) id
      rwa [hsame]
  | @giveAlias parent child b name aliasName _ _ _ _ _ _ =>
      have hsame : (t.enterAlias parent child aliasName).commonDeclarations id =
          t.commonDeclarations id := getD_enterAlias (fun _ => rfl) id
      rwa [hsame]
  | annotate keeps =>
      rw [commonDeclarations, branch?_annotate fun item => (keeps item).2.2]
      exact hd
  | common hb _ => exact (mem_commonDeclarations_enterCommon hb).mpr (.inl hd)

/-- Nothing takes a common switch away. -/
theorem mem_commonDeclarations_of_edits (edits : Edits t t')
    (hd : d ∈ t.commonDeclarations id) : d ∈ t'.commonDeclarations id := by
  induction edits with
  | refl => exact hd
  | tail _ edit ih => exact mem_commonDeclarations_of_edit edit ih

/-- The declaration counts at an item: its names are known there, and if it is required it must be
supplied. -/
structure InForce (t : CommandTree) (d : Declaration) (id : ItemId) : Prop where
  /-- Some switch decides about each of its names, this one or a nearer one, -/
  found : ∀ kind name, d.switch.nameOf kind = some name →
    ∃ near, (t.switchTables id).find? kind name = some near
  /-- so that a report that reads like one of them is about a short name that begins with a
  dash. -/
  unreported : ∀ kind name, d.switch.nameOf kind = some name → ∀ short long options,
    t.verify id short long options = .error (.unknownSwitch (kind.dashes ++ name)) →
    kind = .long ∧ short.contains ("-" ++ name) = true
  demanded : d.isRequired = true → ∀ (short long : Supplied) (options : Options),
    options.asksForHelp short long = false →
    (∀ kind name, d.switch.nameOf kind = some name →
      (Supplied.under short long kind).contains name = false) →
    ∃ fault, t.verify id short long options = .error fault

theorem inForce_of_mem_reachable (hd : d ∈ t.reachable id) : t.InForce d id := by
  constructor
  · intro kind name hname
    exact declares_iff_find?.mp ⟨d, hd, hname⟩
  · intro kind name hname short long options hverify
    obtain ⟨near, hnear⟩ := Declaration.exists_nearest?_iff.mpr ⟨d, hd, hname⟩
    exact of_verify_eq_unknownSwitch_of_nearest? hnear hverify
  · intro hrequired short long options unhelped absent
    cases hverify : t.verify id short long options with
    | error fault => exact ⟨fault, rfl⟩
    | ok _ =>
        obtain ⟨kind, name, hname, hsupplied⟩ :=
          (accepted_of_verify unhelped hverify).complete d hd hrequired
        rw [absent kind name hname] at hsupplied
        cases hsupplied

/-- Common switches count at their branch and at everything below it. -/
theorem mem_reachable_of_mem_ancestry {a : ItemId} (ha : a ∈ t.ancestry id)
    (hd : d ∈ t.commonDeclarations a) : d ∈ t.reachable id :=
  List.mem_append_left _ (List.mem_append_right _ (List.mem_flatMap.mpr ⟨a, ha, hd⟩))

end

/-- A common switch reaches the items below its branch and no other ones: elsewhere everything is
verified and merged as before it was declared, and wherever an item is or will be below the branch
its names are known and, if it is required, it must be supplied. -/
theorem declareCommon_scope {declare : CommandTree → ItemId → Switch → Grown Unit}
    {isRequired : Bool}
    (hdeclare : (declare, isRequired) ∈
      [(declareCommonRequired, true), (declareCommonOptional, false)])
    {t : CommandTree} {branch : ItemId} {switch : Switch}
    (ok : (declare t branch switch).result = .ok ()) :
    (∀ id, branch ∉ t.ancestry id → ∀ short long,
      (∀ options, (declare t branch switch).tree.verify id short long options =
        t.verify id short long options) ∧
      (declare t branch switch).tree.mergedView id short long = t.mergedView id short long ∧
      ∀ view, ((declare t branch switch).tree.switchTables id).Merged short long view ↔
        (t.switchTables id).Merged short long view) ∧
    ∀ later id, branch ∈ ((declare t branch switch).tree.performAll later).ancestry id →
      ((declare t branch switch).tree.performAll later).InForce ⟨switch, isRequired⟩ id := by
  have hsame : declare t branch switch =
      t.declareCommon branch switch (Branch.declare isRequired switch) := by
    rcases List.mem_cons.mp hdeclare with h | h
    · cases h
      rfl
    · cases List.mem_singleton.mp h
      rfl
  rw [hsame] at ok ⊢
  obtain ⟨b, hb, hentered⟩ := of_declareCommon_eq_ok ok
  rw [hentered]
  constructor
  · intro id outside short long
    have htables : (t.enterCommon branch isRequired switch).switchTables id = t.switchTables id :=
      switchTables_enterCommon hb outside
    simp only [verify, mergedView, htables, implies_true, and_self]
  · intro later id below
    have hdeclared : ⟨switch, isRequired⟩ ∈
        (t.enterCommon branch isRequired switch).commonDeclarations branch :=
      (mem_commonDeclarations_enterCommon hb).mpr (.inr ⟨rfl, rfl⟩)
    have hlater := mem_commonDeclarations_of_edits (edits_performAll later _) hdeclared
    exact inForce_of_mem_reachable (mem_reachable_of_mem_ancestry below hlater)

/-- A required switch of `x` counts at a spread item that is added below `x` later and has an
optional switch of the same short name. Beside `x` nothing changes. -/
theorem declareCommon_scope_later_spread :
    let region : Switch :=
      { short := some "r", long := some "region", named := rfl,
        short_wellFormed := by decide, long_wellFormed := by decide }
    let recursive : Switch :=
      { short := some "r", long := none, named := rfl,
        short_wellFormed := by decide, long_wellFormed := by decide }
    let t := ((CommandTree.new.perform (.static 0 "x")).tree.perform (.static 0 "y")).tree
    let t' := (t.declareCommonRequired 1 region).tree
    let later := t'.performAll [.spread 1 "files", .optional 3 recursive]
    (t.declareCommonRequired 1 region).result = .ok () ∧ later.slot? 3 = some .spread ∧
      (∀ short long options, t'.verify 2 short long options = t.verify 2 short long options) ∧
      ∀ options : Options, options.asksForHelp .empty .empty = false →
        ∃ fault, later.verify 3 .empty .empty options = .error fault := by
  intro region recursive t t' later
  have ok : (t.declareCommonRequired 1 region).result = .ok () := by decide +kernel
  obtain ⟨outside, inside⟩ := declareCommon_scope (List.mem_cons_self ..) ok
  refine ⟨ok, by decide +kernel, ?_, fun options unhelped => ?_⟩
  · exact fun short long => (outside 2 (by decide +kernel) short long).1
  · have inForce := inside [.spread 1 "files", .optional 3 recursive] 3 (by decide +kernel)
    exact inForce.demanded rfl .empty .empty options unhelped fun kind _ _ => by cases kind <;> rfl

end CommandRoutes.CommandTree
