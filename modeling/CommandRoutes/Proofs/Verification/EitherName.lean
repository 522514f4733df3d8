import CommandRoutes.Proofs.Verification.Asking
import CommandRoutes.Proofs.Verification.MergeOrder

/-!
# Either name of a switch

Where no two declared switches share a name, each of them decides about both of its names. It is
then all one which of the two names a switch is supplied under: verification accepts both inputs or
neither, though it may report different faults, and where both are accepted with unknown switches
rejected they have the same merged view, in whatever order merging goes about. The ids that
predicates ask about may repeat the names of declared switches; they count last and have one name
only, so that they decide about all of their names as well.
-/
namespace CommandRoutes

theorem NameKind.other_other (kind : NameKind) : kind.other.other = kind := by cases kind <;> rfl

/-! ## Switches that decide about all of their names -/

namespace Declaration

/-- The declaration is the nearest one under every name of its switch. -/
def Unshadowed (ds : List Declaration) (d : Declaration) : Prop :=
  ∀ kind name, d.switch.nameOf kind = some name → nearest? ds kind name = some d

/-- No required switch is shadowed, nor is a switch that decides about one of its names under the
other one. -/
structure Clear (ds : List Declaration) : Prop where
  required : ∀ d ∈ ds, d.isRequired = true → Unshadowed ds d
  nearest : ∀ {kind name d}, nearest? ds kind name = some d → Unshadowed ds d

/-- No two switches of the list share a name. -/
def NamesApart (ds : List Declaration) : Prop :=
  ∀ d ∈ ds, ∀ d' ∈ ds, (∃ name ∈ d.switch.names, name ∈ d'.switch.names) → d = d'

instance (ds : List Declaration) : Decidable (NamesApart ds) :=
  inferInstanceAs (Decidable (∀ d ∈ ds, ∀ d' ∈ ds,
    (∃ name ∈ d.switch.names, name ∈ d'.switch.names) → d = d'))

variable {ds : List Declaration} {d d' : Declaration}

/-- Two declarations that share a name and are not shadowed are one. -/
theorem Unshadowed.eq (h : Unshadowed ds d) (h' : Unshadowed ds d') {name : String}
    (hname : name ∈ d.switch.names) (hname' : name ∈ d'.switch.names) : d = d' := by
  obtain ⟨kind, hkind⟩ := Switch.mem_names.mp hname
  have hkind' := Switch.nameOf_of_mem_names hname' (NameKind.admits_of_nameOf hkind)
  exact Option.some.inj ((h kind name hkind).symm.trans (h' kind name hkind'))

theorem NamesApart.unshadowed (apart : NamesApart ds) (hd : d ∈ ds) (later : List Declaration) :
    Unshadowed (ds ++ later) d := by
  intro kind name hname
  obtain ⟨near, hnear⟩ := exists_nearest?_iff.mpr ⟨d, hd, hname⟩
  obtain rfl : near = d := apart near (mem_of_nearest? hnear) d hd
    ⟨name, Switch.mem_names.mpr ⟨kind, nameOf_of_nearest? hnear⟩,
      Switch.mem_names.mpr ⟨kind, hname⟩⟩
  rw [nearest?, List.find?_append]
  exact Option.or_eq_some_iff.mpr (.inl hnear)

end Declaration

namespace CommandTree
open Declaration

variable {t : CommandTree} {id : ItemId}

theorem clear_reachable (apart : NamesApart (t.declared id)) : Clear (t.reachable id) := by
  have hdeclared : ∀ d ∈ t.declared id, Unshadowed (t.reachable id) d := fun d hd =>
    apart.unshadowed hd _
  have hmem : ∀ d ∈ t.reachable id, d ∈ t.declared id ∨ ∃ name, ofId? name = some d := by
    intro d hd
    refine (List.mem_append.mp hd).imp_right fun hasked => ?_
    obtain ⟨name, _, hname⟩ := List.mem_filterMap.mp hasked
    exact ⟨name, hname⟩
  constructor
  · intro d hd hrequired
    obtain hd | ⟨_, hname⟩ := hmem d hd
    · exact hdeclared d hd
    · rw [(of_ofId? hname).1] at hrequired
      cases hrequired
  · intro kind name d hnearest
    obtain hd | ⟨_, hname⟩ := hmem d (mem_of_nearest? hnearest)
    · exact hdeclared d hd
    · intro own ownName hown
      obtain ⟨rfl, rfl⟩ := (of_ofId? hname).2 _ _ hown
      obtain ⟨rfl, rfl⟩ := (of_ofId? hname).2 _ _ (nameOf_of_nearest? hnearest)
      exact hnearest

end CommandTree

/-! ## Changing the name -/

/-- The second input supplies under the other name what the first one supplies under a name of one
kind, and is the same otherwise. -/
structure Respelled (switch : Switch) (values : List String) (own : NameKind)
    (supplied supplied' : NameKind → Supplied) : Prop where
  named : ∀ kind, ∃ name, switch.nameOf kind = some name
  here : ∀ name, switch.nameOf own = some name →
    (supplied own).get? name = some values ∧ (supplied' own).get? name = none
  there : ∀ name, switch.nameOf own.other = some name →
    (supplied own.other).get? name = none ∧ (supplied' own.other).get? name = some values
  elsewhere : ∀ kind name, switch.nameOf kind ≠ some name →
    (supplied' kind).get? name = (supplied kind).get? name

namespace Respelled
open Declaration
variable {switch : Switch} {values : List String} {own : NameKind}
  {supplied supplied' : NameKind → Supplied} {ds : List Declaration} {strict : Bool}

theorem symm (r : Respelled switch values own supplied supplied') :
    Respelled switch values own.other supplied' supplied where
  named := r.named
  here name hname := (r.there name hname).symm
  there name hname := by
    rw [NameKind.other_other] at hname ⊢
    exact (r.here name hname).symm
  elsewhere kind name hname := (r.elsewhere kind name hname).symm

/-- What is supplied in the second input is what takes the other name, or it was there before. -/
theorem cases (r : Respelled switch values own supplied supplied') {kind : NameKind} {name : String}
    {given : List String} (h : (supplied' kind).get? name = some given) :
    (switch.nameOf kind = some name ∧ kind = own.other ∧ given = values) ∨
      (switch.nameOf kind ≠ some name ∧ (supplied kind).get? name = some given) := by
  by_cases hname : switch.nameOf kind = some name
  · by_cases hkind : kind = own
    · subst hkind
      rw [(r.here name hname).2] at h
      cases h
    · obtain rfl := NameKind.other_eq_of_ne (Ne.symm hkind)
      rw [(r.there name hname).2] at h
      exact .inl ⟨hname, rfl, (Option.some.inj h).symm⟩
  · exact .inr ⟨hname, (r.elsewhere kind name hname).symm.trans h⟩

/-- A switch supplied under its long name instead of its short one. -/
theorem insert {short long : Supplied} {shortName longName : String}
    (hshort : switch.short = some shortName) (hlong : switch.long = some longName)
    (shortFree : short.contains shortName = false) (longFree : long.contains longName = false)
    (values : List String) :
    Respelled switch values .short (.under (short.insert shortName values) long)
      (.under short (long.insert longName values)) where
  named
    | .short => ⟨shortName, hshort⟩
    | .long => ⟨longName, hlong⟩
  here name hname := by
    cases hname.symm.trans hshort
    exact ⟨by simp [Supplied.under], NameMap.contains_eq_false_iff.mp shortFree⟩
  there name hname := by
    cases hname.symm.trans hlong
    exact ⟨NameMap.contains_eq_false_iff.mp longFree, by simp [Supplied.under, NameKind.other]⟩
  elsewhere kind name hname := by
    cases kind with
    | short =>
        have hne : name ≠ shortName := fun heq => hname (heq ▸ hshort)
        simp [Supplied.under, hne]
    | long =>
        have hne : name ≠ longName := fun heq => hname (heq ▸ hlong)
        simp [Supplied.under, hne]

theorem accepted {d : Declaration} (r : Respelled d.switch values own supplied supplied')
    (clear : Clear ds) (hd : Unshadowed ds d) (h : Accepted ds strict supplied) :
    Accepted ds strict supplied' := by
  obtain ⟨ownName, hown⟩ := r.named own
  have hgiven := (r.here ownName hown).1
  constructor
  · intro hstrict kind name hcontains
    obtain ⟨given, hget⟩ := NameMap.contains_iff.mp hcontains
    obtain ⟨hname, _⟩ | ⟨_, hold⟩ := r.cases hget
    · exact ⟨d, hd kind name hname⟩
    · exact h.known hstrict kind name (NameMap.contains_iff.mpr ⟨given, hold⟩)
  · intro kind name near hcontains hnear otherName hother
    obtain ⟨given, hget⟩ := NameMap.contains_iff.mp hcontains
    obtain ⟨hname, rfl, _⟩ | ⟨hname, hold⟩ := r.cases hget
    · -- the switch itself, which is no longer supplied under its first name
      cases hnear.symm.trans (hd _ name hname)
      rw [NameKind.other_other] at hother ⊢
      rw [NameMap.contains, (r.here otherName hother).2]
      rfl
    · have hfree := h.single kind name near (NameMap.contains_iff.mpr ⟨given, hold⟩) hnear
        otherName hother
      have hdifferent : d.switch.nameOf kind.other ≠ some otherName := by
        intro hsame
        have hnear' := clear.nearest hnear kind.other otherName hother
        cases hnear'.symm.trans (hd _ _ hsame)
        exact hname (nameOf_of_nearest? hnear)
      rw [NameMap.contains, r.elsewhere kind.other otherName hdifferent]
      exact hfree
  · intro kind name given near hget hnear
    obtain ⟨hname, _, rfl⟩ | ⟨_, hold⟩ := r.cases hget
    · cases hnear.symm.trans (hd kind name hname)
      exact h.valued own ownName given d hgiven (hd own ownName hown)
    · exact h.valued kind name given near hold hnear
  · intro needed hneeded hrequired
    obtain ⟨kind, name, hname, hcontains⟩ := h.complete needed hneeded hrequired
    by_cases hsame : d.switch.nameOf kind = some name
    · have hneed := clear.required needed hneeded hrequired kind name hname
      cases hneed.symm.trans (hd kind name hsame)
      obtain ⟨otherName, hother⟩ := r.named own.other
      exact ⟨own.other, otherName, hother,
        NameMap.contains_iff.mpr ⟨values, (r.there otherName hother).2⟩⟩
    · refine ⟨kind, name, hname, ?_⟩
      rw [NameMap.contains, r.elsewhere kind name hsame]
      exact hcontains

end Respelled

/-! ## What is merged -/

namespace CommandTree
open Declaration
variable {t : CommandTree} {id : ItemId} {short long short' long' : Supplied}

/-- Of an accepted input each name is written by one switch, and with the values that this switch
is supplied with under one of its names. -/
theorem writesAlike_of_accepted (clear : Clear (t.reachable id))
    (accepted : Accepted (t.reachable id) true (.under short long)) :
    (t.switchTables id).WritesAlike short long := by
  rintro ⟨name, value⟩ he ⟨_, value'⟩ he' rfl
  obtain ⟨kind, own, values, hget, hwritten⟩ := (SwitchTables.mem_writes (.refl _) (.refl _)).mp he
  obtain ⟨kind', own', values', hget', hwritten'⟩ :=
    (SwitchTables.mem_writes (.refl _) (.refl _)).mp he'
  have hcontains := NameMap.contains_iff.mpr ⟨values, hget⟩
  obtain ⟨d, hd⟩ := accepted.known rfl kind own hcontains
  obtain ⟨d', hd'⟩ := accepted.known rfl kind' own' (NameMap.contains_iff.mpr ⟨values', hget'⟩)
  obtain ⟨hname, rfl⟩ := (mem_written hd).mp hwritten
  obtain ⟨hname', rfl⟩ := (mem_written hd').mp hwritten'
  obtain rfl := (clear.nearest hd).eq (clear.nearest hd') hname hname'
  have hown' := nameOf_of_nearest? hd'
  by_cases hkind : kind = kind'
  · subst hkind
    cases (nameOf_of_nearest? hd).symm.trans hown'
    exact Option.some.inj (hget.symm.trans hget')
  · obtain rfl := NameKind.other_eq_of_ne hkind
    have habsent := accepted.single kind own d hcontains hd own' hown'
    rw [NameMap.contains, hget'] at habsent
    cases habsent

/-- The switch writes under both of its names, whichever of them it is supplied under. -/
theorem mem_writes_of_respelled {d : Declaration} {values : List String} {own : NameKind}
    (r : Respelled d.switch values own (.under short long) (.under short' long'))
    (hd : Unshadowed (t.reachable id) d) {e : String × List String}
    (he : e ∈ (t.switchTables id).writes short.entries long.entries) :
    e ∈ (t.switchTables id).writes short'.entries long'.entries := by
  rw [SwitchTables.mem_writes (.refl _) (.refl _)] at he ⊢
  obtain ⟨kind, name, given, hget, hwritten⟩ := he
  obtain ⟨hname, _, rfl⟩ | ⟨_, hget'⟩ := r.symm.cases hget
  · obtain ⟨otherName, hother⟩ := r.named own.other
    exact ⟨own.other, otherName, given, (r.there otherName hother).2,
      (mem_written (hd _ _ hother)).mpr ((mem_written (hd _ _ hname)).mp hwritten)⟩
  · exact ⟨kind, name, given, hget', hwritten⟩

/-- Defaults that stand under names of which they are the nearest declarations are no rivals. -/
theorem peaceful_of_clear (clear : Clear (t.reachable id)) (view : Supplied) (kind : NameKind) :
    SwitchTables.Peaceful view ((t.switchTables id).defaulted kind) := by
  have hunshadowed : ∀ switch ∈ (t.switchTables id).defaulted kind,
      Unshadowed (t.reachable id) ⟨switch, false⟩ := by
    intro switch hswitch
    obtain ⟨key, hkey, _⟩ := (t.keyed_switchTables id).exists_key hswitch
    exact clear.nearest ((t.optional_switchTables id kind key switch).mp hkey)
  rintro a ha b hb ⟨hne, _, _, name, hname, hname'⟩
  exact hne (congrArg Declaration.switch ((hunshadowed a ha).eq (hunshadowed b hb) hname hname'))

/-- All views of the two inputs are one. -/
theorem merged_eq_of_respelled (clear : Clear (t.reachable id)) {d : Declaration}
    {values : List String} {own : NameKind}
    (r : Respelled d.switch values own (.under short long) (.under short' long'))
    (hd : Unshadowed (t.reachable id) d)
    (accepted : Accepted (t.reachable id) true (.under short long)) (view view' : Supplied)
    (hview : (t.switchTables id).Merged short long view)
    (hview' : (t.switchTables id).Merged short' long' view') : view = view' := by
  have alike := writesAlike_of_accepted clear accepted
  have alike' := writesAlike_of_accepted clear (r.accepted clear hd accepted)
  have hbase : NameMap.ofList ((t.switchTables id).writes short.entries long.entries) =
      .ofList ((t.switchTables id).writes short'.entries long'.entries) :=
    NameMap.ofList_congr alike' fun e =>
      ⟨mem_writes_of_respelled r hd, mem_writes_of_respelled r.symm hd⟩
  have hmerge : (t.switchTables id).merge short long = (t.switchTables id).merge short' long' := by
    rw [SwitchTables.merge, SwitchTables.merge, SwitchTables.mergeInOrder_eq,
      SwitchTables.mergeInOrder_eq, hbase]
  rw [hview.eq_merge alike (peaceful_of_clear clear _ _) (peaceful_of_clear clear _ _), hmerge,
    hview'.eq_merge alike' (peaceful_of_clear clear _ _) (peaceful_of_clear clear _ _)]

/-- Where no two declared switches share a name, it is all one under which of its names a declared
switch is supplied: both inputs are accepted or neither is, and if they are accepted with unknown
switches rejected, their merged views are the same, in whatever order merging goes about. -/
theorem verify_either_name (apart : NamesApart (t.declared id)) {d : Declaration}
    (hd : d ∈ t.declared id) {shortName longName : String}
    (hshort : d.switch.short = some shortName) (hlong : d.switch.long = some longName)
    (shortFree : short.contains shortName = false) (longFree : long.contains longName = false)
    (values : List String) {options : Options}
    (unhelped : options.asksForHelp (short.insert shortName values) long = false)
    (unhelped' : options.asksForHelp short (long.insert longName values) = false) :
    (t.verify id (short.insert shortName values) long options = .ok () ↔
      t.verify id short (long.insert longName values) options = .ok ()) ∧
    (options.strict = true →
      t.verify id (short.insert shortName values) long options = .ok () →
      t.mergedView id (short.insert shortName values) long =
        t.mergedView id short (long.insert longName values) ∧
      ∀ view view', (t.switchTables id).Merged (short.insert shortName values) long view →
        (t.switchTables id).Merged short (long.insert longName values) view' → view = view') := by
  have clear := clear_reachable apart
  have unshadowed : Unshadowed (t.reachable id) d := apart.unshadowed hd _
  have r := Respelled.insert hshort hlong shortFree longFree values
  constructor
  · rw [verify_eq_ok_iff_accepted unhelped, verify_eq_ok_iff_accepted unhelped']
    exact ⟨r.accepted clear unshadowed, r.symm.accepted clear unshadowed⟩
  · intro strict hverify
    have accepted := accepted_of_verify unhelped hverify
    rw [strict] at accepted
    have same := merged_eq_of_respelled clear r unshadowed accepted
    exact ⟨same _ _ SwitchTables.merged_merge SwitchTables.merged_merge, same⟩

/-- A required switch with a value, in a branch with an optional switch of its own and with an id
that a predicate asks about. -/
theorem verify_either_name_required :
    let region : Switch :=
      { short := some "r", long := some "region", parameters := ["name"], named := rfl,
        short_wellFormed := by decide, long_wellFormed := by decide }
    let out : Switch :=
      { short := some "o", long := some "out", default := some ["a"], named := rfl,
        short_wellFormed := by decide, long_wellFormed := by decide }
    let t := (((CommandTree.new.perform (.route "x[dry-run]")).tree.perform
      (.required 1 region)).tree.perform (.commonOptional 0 out)).tree
    let long : Supplied := .ofList [("dry-run", [])]
    let options : Options := { helpBySwitch := true }
    NamesApart (t.declared 1) ∧ ⟨region, true⟩ ∈ t.declared 1 ∧
      (t.verify 1 (NameMap.empty.insert "r" ["eu"]) long options = .ok () ↔
        t.verify 1 .empty (long.insert "region" ["eu"]) options = .ok ()) ∧
      t.verify 1 (NameMap.empty.insert "r" ["eu"]) long options = .ok () ∧
      t.mergedView 1 (NameMap.empty.insert "r" ["eu"]) long =
        t.mergedView 1 .empty (long.insert "region" ["eu"]) := by
  intro region out t long options
  have apart : NamesApart (t.declared 1) := by decide +kernel
  have hmem : ⟨region, true⟩ ∈ t.declared 1 := by decide +kernel
  have hverify : t.verify 1 (NameMap.empty.insert "r" ["eu"]) long options = .ok () := by
    decide +kernel
  have shortFree : (NameMap.empty : Supplied).contains "r" = false := rfl
  have longFree : long.contains "region" = false := by decide +kernel
  have unhelped : options.asksForHelp (NameMap.empty.insert "r" ["eu"]) long = false := by
    decide +kernel
  obtain ⟨haccept, hmerged⟩ := verify_either_name apart hmem rfl rfl shortFree longFree ["eu"]
    unhelped (by decide +kernel)
  exact ⟨apart, hmem, haccept, hverify, (hmerged rfl hverify).1⟩

end CommandTree

end CommandRoutes
