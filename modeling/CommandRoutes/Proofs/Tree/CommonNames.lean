import CommandRoutes.Proofs.Tree.WellFormed

/-!
# Names of common switches

The names recorded in a branch are those of the common switches declared on it
or below it, and no two common switches on one path from the root share a name.
Both are kept by every edit, and from both follows what a declaration comes to:
it fails on an item without a branch, it fails on a name that is in use on the
item, above it or below it, and in no other case.
-/
namespace CommandRoutes

/-- Declared on the branch itself, the required switches first. -/
def Branch.commonSwitches (b : Branch) : List Switch :=
  b.commonRequired.toList ++ b.commonOptional.toList

theorem Branch.commonSwitches_declare (isRequired : Bool) (switch : Switch) (b : Branch) :
    ((Branch.declare isRequired switch b).commonSwitches).Perm (switch :: b.commonSwitches) := by
  cases isRequired with
  | true =>
      simp only [declare, commonSwitches, Switches.insert, List.append_assoc, List.singleton_append]
      exact List.perm_middle
  | false =>
      simp only [declare, commonSwitches, Switches.insert, ← List.append_assoc]
      exact List.perm_append_singleton ..

namespace CommandTree

def commonSwitches (t : CommandTree) (id : ItemId) : List Switch :=
  ((t.branch? id).map Branch.commonSwitches).getD []

def commonNames (t : CommandTree) (id : ItemId) : List String :=
  (t.commonSwitches id).flatMap Switch.names

/-- The names recorded at an item. -/
def namesBelow (t : CommandTree) (id : ItemId) : List String :=
  ((t.branch? id).map Branch.namesBelow).getD []

/-- A common switch of the item, of an ancestor or of a descendant has the name. -/
def CommonNameInUse (t : CommandTree) (id : ItemId) (name : String) : Prop :=
  ∃ d, (d ∈ t.ancestry id ∨ id ∈ t.ancestry d) ∧ name ∈ t.commonNames d

structure CommonSound (t : CommandTree) : Prop where
  /-- The recorded names are those of the common switches on the item and below it. -/
  recorded : ∀ n name, name ∈ t.namesBelow n ↔ ∃ d, n ∈ t.ancestry d ∧ name ∈ t.commonNames d
  /-- The common switches of one item share no name. -/
  apart : ∀ n, (t.commonSwitches n).Pairwise fun s s' => s.names.Disjoint s'.names
  /-- Nor do those of an item and of one of its descendants. -/
  apart_below : ∀ n d, n ∈ t.ancestry d → n ≠ d →
    ∀ s ∈ t.commonSwitches n, ∀ s' ∈ t.commonSwitches d, s.names.Disjoint s'.names

theorem mem_commonNames {t : CommandTree} {id : ItemId} {name : String} :
    name ∈ t.commonNames id ↔ ∃ s ∈ t.commonSwitches id, name ∈ s.names := List.mem_flatMap

theorem ownCommonNames_eq (t : CommandTree) (id : ItemId) :
    ((t.branch? id).map Branch.ownCommonNames).getD [] = t.commonNames id := by
  unfold commonNames commonSwitches
  cases t.branch? id <;> rfl

theorem lt_size_of_mem_commonNames {t : CommandTree} {id : ItemId} {name : String}
    (h : name ∈ t.commonNames id) : id < t.size := by
  cases hb : t.branch? id with
  | none => simp [commonNames, commonSwitches, hb] at h
  | some b => exact lt_size_of_branch? hb

/-! ## Edits that declare no common switch -/

/-- What stays the same in every branch, and is nothing in an empty one, stays the same in the
tree when an item is attached. -/
theorem getD_attachSegment {α : Type} {t : CommandTree} {parent : ItemId} {b : Branch}
    {s : Segment} (hb : t.branch? parent = some b) {f : Branch → List α} (empty : f {} = [])
    (enter : ∀ slot id b, f (Slot.enter slot id b) = f b) (i : ItemId) :
    (((t.attachSegment parent s).tree.branch? i).map f).getD [] =
      ((t.branch? i).map f).getD [] := by
  rw [branch?_attachSegment hb]
  split_ifs with hnew hpar
  · have hnone : t.branch? i = none := by
      rw [branch?, get?_eq_none (Nat.le_of_eq hnew.symm)]
      rfl
    rw [hnone]
    cases s <;> simp [Segment.kind, ItemKind.branch?, empty]
  · subst hpar
    simp [hb, enter]
  · rfl

theorem getD_enterAlias {α : Type} {t : CommandTree} {parent id : ItemId} {aliasName : String}
    {f : Branch → List α}
    (enter : ∀ b : Branch, f { b with aliases := b.aliases.insert aliasName id } = f b)
    (i : ItemId) :
    (((t.enterAlias parent id aliasName).branch? i).map f).getD [] =
      ((t.branch? i).map f).getD [] := by
  rw [branch?_enterAlias]
  split_ifs
  · simp [Function.comp_def, enter]
  · rfl

theorem branch?_annotate {t : CommandTree} {id : ItemId} {f : PathItem → PathItem}
    (keeps : ∀ item, (f item).kind = item.kind) (i : ItemId) :
    (t.modify id f).branch? i = t.branch? i := by
  rw [branch?, get?_modify]
  split_ifs
  · rw [branch?, Option.bind_map]
    exact congrArg _ (funext fun item => congrArg ItemKind.branch? (keeps item))
  · rfl

namespace CommonSound
variable {t t' : CommandTree}

theorem of_same (c : t.CommonSound) (switches : ∀ i, t'.commonSwitches i = t.commonSwitches i)
    (names : ∀ i, t'.namesBelow i = t.namesBelow i)
    (ancestry : ∀ i < t.size, t'.ancestry i = t.ancestry i) : t'.CommonSound := by
  have hnames : ∀ i, t'.commonNames i = t.commonNames i := fun i => by
    rw [commonNames, commonNames, switches]
  constructor
  · intro n name
    rw [names, c.recorded]
    refine exists_congr fun d => ?_
    rw [hnames]
    refine and_congr_left fun hd => ?_
    rw [ancestry d (lt_size_of_mem_commonNames hd)]
  · intro n
    rw [switches]
    exact c.apart n
  · intro n d hn hne s hs s' hs' name hname hname'
    rw [switches] at hs hs'
    have hd := lt_size_of_mem_commonNames (mem_commonNames.mpr ⟨s', hs', hname'⟩)
    rw [ancestry d hd] at hn
    exact c.apart_below n d hn hne s hs s' hs' hname hname'

end CommonSound

/-! ## Declaring a common switch -/

theorem mem_foldr_insert {names old : List String} {name : String} :
    name ∈ names.foldr List.insert old ↔ name ∈ old ∨ name ∈ names := by
  induction names with
  | nil => simp
  | cons head rest ih =>
      rw [List.foldr_cons, List.mem_insert_iff, ih, List.mem_cons]
      exact or_left_comm

section
variable {t : CommandTree} {names : List String}

theorem branch?_recordNames_of_not_mem {ids : List ItemId} {i : ItemId} (h : i ∉ ids) :
    (t.recordNames names ids).branch? i = t.branch? i := by
  induction ids generalizing t with
  | nil => rfl
  | cons id ids ih =>
      obtain ⟨hne, hrest⟩ := not_or.mp (mt List.mem_cons.mpr h)
      refine (ih hrest).trans ?_
      rw [branch?_modifyBranch, if_neg hne]

/-- Recording names changes nothing else in a branch. -/
theorem getD_recordNames {α : Type} {f : Branch → List α}
    (record : ∀ b names, f { b with namesBelow := names } = f b) (ids : List ItemId) (i : ItemId) :
    (((t.recordNames names ids).branch? i).map f).getD [] = ((t.branch? i).map f).getD [] := by
  induction ids generalizing t with
  | nil => rfl
  | cons id ids ih =>
      refine ih.trans ?_
      rw [branch?_modifyBranch]
      split_ifs
      · simp [Function.comp_def, record]
      · rfl

theorem mem_namesBelow_recordNames {ids : List ItemId}
    (branches : ∀ i ∈ ids, ∃ b, t.branch? i = some b) {i : ItemId} {name : String} :
    name ∈ (t.recordNames names ids).namesBelow i ↔
      name ∈ t.namesBelow i ∨ i ∈ ids ∧ name ∈ names := by
  induction ids generalizing t with
  | nil => simp [recordNames]
  | cons id ids ih =>
      obtain ⟨b, hb⟩ := branches id (List.mem_cons_self ..)
      have step : ∀ i, (t.modifyBranch id fun b =>
          { b with namesBelow := names.foldr List.insert b.namesBelow }).branch? i =
            if i = id then some { b with namesBelow := names.foldr List.insert b.namesBelow }
            else t.branch? i := fun i => by
        rw [branch?_modifyBranch]
        split_ifs with hi
        · rw [hi, hb]
          rfl
        · rfl
      refine (ih fun j hj => ?_).trans ?_
      · rw [step]
        split_ifs
        · exact ⟨_, rfl⟩
        · exact branches j (List.mem_cons_of_mem _ hj)
      · rw [namesBelow, namesBelow, step, List.mem_cons]
        split_ifs with hi
        · subst hi
          simp only [hb, Option.map_some, Option.getD_some, mem_foldr_insert]
          tauto
        · simp [hi]

variable {id : ItemId} {b : Branch} {isRequired : Bool} {switch : Switch}

/-- Apart from the recorded names a declaration changes its own branch alone. -/
theorem getD_enterCommon {α : Type} {f : Branch → List α}
    (record : ∀ b names, f { b with namesBelow := names } = f b) (hb : t.branch? id = some b)
    (i : ItemId) :
    (((t.enterCommon id isRequired switch).branch? i).map f).getD [] =
      if i = id then f (b.declare isRequired switch) else ((t.branch? i).map f).getD [] := by
  rw [enterCommon, getD_recordNames record, branch?_modifyBranch]
  split_ifs with hi
  · rw [hi, hb]
    rfl
  · rfl

theorem commonSwitches_enterCommon (hb : t.branch? id = some b) (i : ItemId) :
    (t.enterCommon id isRequired switch).commonSwitches i =
      if i = id then (b.declare isRequired switch).commonSwitches else t.commonSwitches i :=
  getD_enterCommon (fun _ _ => rfl) hb i

theorem ancestry_enterCommon (i : ItemId) :
    (t.enterCommon id isRequired switch).ancestry i = t.ancestry i :=
  ancestry_of_outline_eq (outline_enterCommon ..) i

theorem mem_commonSwitches_enterCommon (hb : t.branch? id = some b) {i : ItemId} {s : Switch} :
    s ∈ (t.enterCommon id isRequired switch).commonSwitches i ↔
      s ∈ t.commonSwitches i ∨ i = id ∧ s = switch := by
  rw [commonSwitches_enterCommon hb]
  split_ifs with hi
  · subst hi
    rw [(b.commonSwitches_declare isRequired switch).mem_iff, List.mem_cons]
    simp [commonSwitches, hb, or_comm]
  · simp [hi]

theorem mem_commonNames_enterCommon (hb : t.branch? id = some b) {i : ItemId} {name : String} :
    name ∈ (t.enterCommon id isRequired switch).commonNames i ↔
      name ∈ t.commonNames i ∨ i = id ∧ name ∈ switch.names := by
  simp only [mem_commonNames, mem_commonSwitches_enterCommon hb]
  constructor
  · rintro ⟨s, hs | ⟨hi, rfl⟩, hname⟩
    · exact .inl ⟨s, hs, hname⟩
    · exact .inr ⟨hi, hname⟩
  · rintro (⟨s, hs, hname⟩ | ⟨hi, hname⟩)
    · exact ⟨s, .inl hs, hname⟩
    · exact ⟨switch, .inr ⟨hi, rfl⟩, hname⟩

theorem mem_namesBelow_enterCommon (w : t.WellFormed) (hb : t.branch? id = some b) {i : ItemId}
    {name : String} :
    name ∈ (t.enterCommon id isRequired switch).namesBelow i ↔
      name ∈ t.namesBelow i ∨ i ∈ t.ancestry id ∧ name ∈ switch.names := by
  have same : (t.modifyBranch id (Branch.declare isRequired switch)).namesBelow i =
      t.namesBelow i := by
    rw [namesBelow, namesBelow, branch?_modifyBranch]
    split_ifs
    · cases isRequired <;> simp [Branch.declare, Function.comp_def]
    · rfl
  have branches : ∀ j ∈ t.ancestry id,
      ∃ b', (t.modifyBranch id (Branch.declare isRequired switch)).branch? j = some b' := by
    intro j hj
    obtain ⟨b', hb'⟩ := w.exists_branch_of_mem_ancestry hb hj
    rw [branch?_modifyBranch, hb']
    split_ifs
    · exact ⟨_, rfl⟩
    · exact ⟨_, rfl⟩
  rw [enterCommon, mem_namesBelow_recordNames branches, same]

end

namespace CommonSound
variable {t : CommandTree} {id : ItemId} {b : Branch} {name : String}

/-- A declaration looks at the names that are in use on the item, above it and below it. -/
theorem mem_takenNames (c : t.CommonSound) (hb : t.branch? id = some b) :
    name ∈ t.takenNames id b ↔ t.CommonNameInUse id name := by
  have hbelow : name ∈ b.namesBelow ↔ ∃ d, id ∈ t.ancestry d ∧ name ∈ t.commonNames d := by
    rw [← c.recorded, namesBelow, hb]
    rfl
  simp only [takenNames, List.mem_append, List.mem_flatMap, ownCommonNames_eq, hbelow]
  constructor
  · rintro (⟨d, hd, hname⟩ | ⟨a, ha, hname⟩)
    · exact ⟨d, .inr hd, hname⟩
    · exact ⟨a, .inl ha, hname⟩
  · rintro ⟨d, hd | hd, hname⟩
    · exact .inr ⟨d, hd, hname⟩
    · exact .inl ⟨d, hd, hname⟩

theorem enterCommon (c : t.CommonSound) (w : t.WellFormed) (hb : t.branch? id = some b)
    {isRequired : Bool} {switch : Switch}
    (free : ∀ name ∈ switch.names, name ∉ t.takenNames id b) :
    (t.enterCommon id isRequired switch).CommonSound := by
  have unused : ∀ d, (d ∈ t.ancestry id ∨ id ∈ t.ancestry d) → ∀ s ∈ t.commonSwitches d,
      switch.names.Disjoint s.names := by
    intro d hd s hs name hname hname'
    refine free name hname ((c.mem_takenNames hb).mpr ⟨d, hd, ?_⟩)
    exact mem_commonNames.mpr ⟨s, hs, hname'⟩
  constructor
  · intro n name
    simp only [mem_namesBelow_enterCommon w hb, mem_commonNames_enterCommon hb,
      ancestry_enterCommon, c.recorded]
    constructor
    · rintro (⟨d, hd, hname⟩ | ⟨hn, hname⟩)
      · exact ⟨d, hd, .inl hname⟩
      · exact ⟨id, hn, .inr ⟨rfl, hname⟩⟩
    · rintro ⟨d, hd, hname | ⟨rfl, hname⟩⟩
      · exact .inl ⟨d, hd, hname⟩
      · exact .inr ⟨hd, hname⟩
  · intro n
    rw [commonSwitches_enterCommon hb]
    split_ifs with hn
    · have hsame : t.commonSwitches id = b.commonSwitches := by simp [commonSwitches, hb]
      rw [(b.commonSwitches_declare isRequired switch).pairwise_iff List.disjoint_symm, ← hsame,
        List.pairwise_cons]
      exact ⟨unused id (.inl (self_mem_ancestry id)), c.apart id⟩
    · exact c.apart n
  · intro n d hn hne s hs s' hs'
    rw [ancestry_enterCommon] at hn
    rw [mem_commonSwitches_enterCommon hb] at hs hs'
    rcases hs with hs | ⟨rfl, rfl⟩
    · rcases hs' with hs' | ⟨rfl, rfl⟩
      · exact c.apart_below n d hn hne s hs s' hs'
      · exact List.disjoint_symm (unused n (.inl hn) s hs)
    · rcases hs' with hs' | ⟨rfl, rfl⟩
      · exact unused d (.inr hn) s' hs'
      · exact absurd rfl hne

theorem edit (c : t.CommonSound) (w : t.WellFormed) {t' : CommandTree} (h : Edit t t') :
    t'.CommonSound := by
  cases h with
  | attach hb _ _ =>
      refine c.of_same (getD_attachSegment hb rfl ?_) (getD_attachSegment hb rfl ?_) ?_
      · intro slot id b
        cases slot <;> rfl
      · intro slot id b
        cases slot <;> rfl
      · intro i hi
        refine ancestry_congr fun j hj => ?_
        rw [parent?_attachSegment hb, if_neg (Nat.ne_of_lt (Nat.lt_of_le_of_lt hj hi))]
  | giveAlias _ _ _ _ _ _ =>
      refine c.of_same (getD_enterAlias fun _ => rfl) (getD_enterAlias fun _ => rfl) ?_
      exact fun i _ => ancestry_congr fun j _ => parent?_enterAlias j
  | @annotate id f keeps =>
      have hbranch : ∀ i, (t.modify id f).branch? i = t.branch? i :=
        branch?_annotate fun item => (keeps item).2.2
      refine c.of_same (fun i => ?_) (fun i => ?_) ?_
      · rw [commonSwitches, commonSwitches, hbranch]
      · rw [namesBelow, namesBelow, hbranch]
      · exact fun i _ => ancestry_of_outline_eq (outline_annotate keeps) i
  | common hb free => exact c.enterCommon w hb free

theorem new : CommandTree.new.CommonSound := by
  have hnone : ∀ i, CommandTree.new.commonSwitches i = [] := by
    intro i
    cases i <;> rfl
  have hnames : ∀ i, CommandTree.new.namesBelow i = [] := by
    intro i
    cases i <;> rfl
  constructor
  · intro n name
    simp [hnames, commonNames, hnone]
  · intro n
    simp [hnone]
  · intro n d _ _ s hs
    simp [hnone] at hs

end CommonSound

theorem Reachable.commonSound {t : CommandTree} (h : t.Reachable) : t.CommonSound := by
  have both : t.WellFormed ∧ t.CommonSound := by
    refine h.invariant (P := fun t => t.WellFormed ∧ t.CommonSound) ⟨.new, .new⟩ ?_
    rintro t t' ⟨w, c⟩ edit
    exact ⟨w.edit edit, c.edit w edit⟩
  exact both.2

/-! ## What a declaration comes to -/

section
variable {t : CommandTree} {id : ItemId} {b : Branch} {switch : Switch} {enter : Branch → Branch}

theorem result_declareCommon_of_none (hb : t.branch? id = none) :
    (t.declareCommon id switch enter).result = .error (.noBranch (t.routeOf id)) := by
  rw [declareCommon, branchOf_eq_error.mpr ⟨hb, rfl⟩]

theorem result_declareCommon (hb : t.branch? id = some b) :
    (t.declareCommon id switch enter).result =
      match switch.names.find? (t.takenNames id b).contains with
      | some name => .error (.commonNameTaken (t.routeOf id) name)
      | none => .ok () := by
  rw [declareCommon, branchOf_eq_ok.mpr hb]
  dsimp only
  cases switch.names.find? (t.takenNames id b).contains <;> rfl

theorem of_declareCommon_eq_ok {isRequired : Bool}
    (ok : (t.declareCommon id switch (Branch.declare isRequired switch)).result = .ok ()) :
    ∃ b, t.branch? id = some b ∧
      (t.declareCommon id switch (Branch.declare isRequired switch)).tree =
        t.enterCommon id isRequired switch := by
  obtain ⟨e, h⟩ | ⟨_, h⟩ := t.declareCommon_cases id isRequired switch
  · rw [h] at ok
    cases ok
  · cases hb : t.branch? id with
    | none =>
        rw [result_declareCommon_of_none hb] at ok
        cases ok
    | some b => exact ⟨b, rfl, by rw [h]⟩

theorem CommonSound.find?_takenNames (c : t.CommonSound) (hb : t.branch? id = some b)
    (switch : Switch) :
    (∃ name, switch.names.find? (t.takenNames id b).contains = some name ∧
      name ∈ switch.names ∧ t.CommonNameInUse id name) ∨
    switch.names.find? (t.takenNames id b).contains = none ∧
      ∀ name ∈ switch.names, ¬t.CommonNameInUse id name := by
  cases hf : switch.names.find? (t.takenNames id b).contains with
  | some name =>
      have htaken : name ∈ t.takenNames id b := List.contains_iff_mem.mp (List.find?_some hf)
      exact .inl ⟨name, rfl, List.mem_of_find?_eq_some hf, (c.mem_takenNames hb).mp htaken⟩
  | none =>
      refine .inr ⟨rfl, fun name hname huse => ?_⟩
      exact List.find?_eq_none.mp hf name hname
        (List.contains_iff_mem.mpr ((c.mem_takenNames hb).mpr huse))

end

/-- What declaring a common switch on an item comes to, in terms of the tree before. -/
structure DeclarationAnswer (t : CommandTree) (id : ItemId) (switch : Switch)
    (result : Except Fault Unit) : Prop where
  noBranch : result = .error (.noBranch (t.routeOf id)) ↔
    t.slot? id = some .spread ∨ t.slot? id = some .switchItem
  taken : (∃ name, result = .error (.commonNameTaken (t.routeOf id) name)) ↔
    t.slot? id ≠ some .spread ∧ t.slot? id ≠ some .switchItem ∧
      ∃ name ∈ switch.names, t.CommonNameInUse id name
  ok : result = .ok () ↔
    t.slot? id ≠ some .spread ∧ t.slot? id ≠ some .switchItem ∧
      ∀ name ∈ switch.names, ¬t.CommonNameInUse id name
  /-- The name reported is one of the switch's that is in use. -/
  reported : ∀ route name, result = .error (.commonNameTaken route name) →
    name ∈ switch.names ∧ t.CommonNameInUse id name

theorem CommonSound.declarationAnswer {t : CommandTree} (c : t.CommonSound) {id : ItemId}
    (hid : id < t.size) (switch : Switch) (enter : Branch → Branch) :
    t.DeclarationAnswer id switch (t.declareCommon id switch enter).result := by
  have hkind := branch?_eq_none_iff hid
  cases hb : t.branch? id with
  | none =>
      have hleaf := hkind.mp hb
      rw [result_declareCommon_of_none hb]
      constructor
      · simp [hleaf]
      · simp only [reduceCtorEq, Except.error.injEq, exists_false, false_iff]
        rintro ⟨hspread, hitem, _⟩
        exact hleaf.elim hspread hitem
      · simp only [reduceCtorEq, false_iff]
        rintro ⟨hspread, hitem, _⟩
        exact hleaf.elim hspread hitem
      · intro route name h
        cases h
  | some b =>
      have hblock : t.slot? id ≠ some .spread ∧ t.slot? id ≠ some .switchItem := by
        rw [← not_or, ← hkind, hb]
        simp
      rw [result_declareCommon hb]
      obtain ⟨name, hf, hname, huse⟩ | ⟨hf, hfree⟩ := c.find?_takenNames hb switch
      · rw [hf]
        constructor
        · simp [hblock]
        · simp only [hblock, ne_eq, not_false_eq_true, true_and]
          exact ⟨fun _ => ⟨name, hname, huse⟩, fun _ => ⟨name, rfl⟩⟩
        · simp only [reduceCtorEq, false_iff]
          exact fun h => h.2.2 name hname huse
        · intro route other h
          cases h
          exact ⟨hname, huse⟩
      · rw [hf]
        constructor
        · simp [hblock]
        · simp only [reduceCtorEq, exists_false, false_iff]
          rintro ⟨_, _, name, hname, huse⟩
          exact hfree name hname huse
        · simp only [true_iff]
          exact ⟨hblock.1, hblock.2, hfree⟩
        · intro route name h
          cases h

/-- What is declared on one item makes no difference to what is declared on an unrelated one. -/
theorem result_declareCommon_enterCommon {t : CommandTree} {id other : ItemId} {b : Branch}
    (hb : t.branch? id = some b) (above : other ∉ t.ancestry id) (below : id ∉ t.ancestry other)
    (isRequired : Bool) (switch switch' : Switch) (enter : Branch → Branch) :
    ((t.enterCommon id isRequired switch).declareCommon other switch' enter).result =
      (t.declareCommon other switch' enter).result := by
  have hne : other ≠ id := by
    rintro rfl
    exact above (self_mem_ancestry other)
  have hbranch : (t.enterCommon id isRequired switch).branch? other = t.branch? other := by
    rw [enterCommon, branch?_recordNames_of_not_mem above, branch?_modifyBranch, if_neg hne]
  have hroute : (t.enterCommon id isRequired switch).routeOf other = t.routeOf other :=
    routeOf_of_outline_eq (outline_enterCommon ..) other
  have htaken : ∀ b', (t.enterCommon id isRequired switch).takenNames other b' =
      t.takenNames other b' := by
    intro b'
    simp only [takenNames, ancestry_enterCommon, ownCommonNames_eq]
    congr 1
    refine List.flatMap_congr fun a ha => ?_
    have ha' : a ≠ id := fun h => below (h ▸ ha)
    rw [commonNames, commonNames, commonSwitches_enterCommon hb, if_neg ha']
  cases hother : t.branch? other with
  | none =>
      rw [result_declareCommon_of_none hother, result_declareCommon_of_none (hbranch.trans hother),
        hroute]
  | some b' =>
      rw [result_declareCommon hother, result_declareCommon (hbranch.trans hother), hroute, htaken]

theorem result_declareCommon_declareCommon {t : CommandTree} {id other : ItemId}
    (above : other ∉ t.ancestry id) (below : id ∉ t.ancestry other) (isRequired : Bool)
    (switch switch' : Switch) (enter : Branch → Branch) :
    ((t.declareCommon id switch (Branch.declare isRequired switch)).tree.declareCommon other
      switch' enter).result = (t.declareCommon other switch' enter).result := by
  obtain ⟨e, h⟩ | ⟨_, h⟩ := t.declareCommon_cases id isRequired switch
  · rw [h]
  · obtain ⟨b, hb, htree⟩ := of_declareCommon_eq_ok (congrArg Grown.result h)
    rw [htree]
    exact result_declareCommon_enterCommon hb above below isRequired switch switch' enter

theorem exists_eq_declareCommon {declare : CommandTree → ItemId → Switch → Grown Unit}
    (h : declare ∈ [declareCommonRequired, declareCommonOptional]) :
    ∃ isRequired, ∀ t id switch,
      declare t id switch = t.declareCommon id switch (Branch.declare isRequired switch) := by
  rcases List.mem_cons.mp h with rfl | h
  · exact ⟨true, fun _ _ _ => rfl⟩
  · rw [List.mem_singleton.mp h]
    exact ⟨false, fun _ _ _ => rfl⟩

/-- Common switches on one path never share a name, the recorded names are exact, and a
declaration, required or optional, fails for the two reasons there are and for no other; what is
declared on unrelated items makes no difference. -/
theorem Reachable.commonSwitches_sound {t : CommandTree} (h : t.Reachable) :
    t.CommonSound ∧
    ∀ declare ∈ [declareCommonRequired, declareCommonOptional],
      (∀ id < t.size, ∀ switch, t.DeclarationAnswer id switch (declare t id switch).result) ∧
      ∀ declare' ∈ [declareCommonRequired, declareCommonOptional],
        ∀ id other, other ∉ t.ancestry id → id ∉ t.ancestry other → ∀ switch switch',
          (declare' (declare t id switch).tree other switch').result =
            (declare' t other switch').result := by
  have c := h.commonSound
  refine ⟨c, fun declare hdeclare => ?_⟩
  obtain ⟨isRequired, heq⟩ := exists_eq_declareCommon hdeclare
  constructor
  · intro id hid switch
    rw [heq]
    exact c.declarationAnswer hid switch _
  · intro declare' hdeclare' id other above below switch switch'
    obtain ⟨isRequired', heq'⟩ := exists_eq_declareCommon hdeclare'
    rw [heq, heq', heq']
    exact result_declareCommon_declareCommon above below isRequired switch switch' _

/-- A switch of an item two levels below the root keeps the root from declaring its names. -/
theorem commonSwitches_sound_two_levels :
    let verbose : Switch := {
      short := some "v"
      long := some "verbose"
      named := rfl
      short_wellFormed := by decide
      long_wellFormed := by decide }
    let t := (((CommandTree.new.perform (.static 0 "a")).tree.perform (.static 1 "b")).tree.perform
      (.commonOptional 2 verbose)).tree
    t.Reachable ∧ t.CommonSound ∧ t.namesBelow 0 = ["v", "verbose"] ∧
      (t.declareCommonRequired 0 verbose).result = .error (.commonNameTaken "/" "v") := by
  intro verbose t
  have reached : t.Reachable := ((Reachable.new.perform _).perform _).perform _
  exact ⟨reached, reached.commonSwitches_sound.1, by decide +kernel, by decide +kernel⟩

end CommandTree
end CommandRoutes
