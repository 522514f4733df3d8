import CommandRoutes.Proofs.Tree.Routed
import CommandRoutes.Proofs.Verification.Rules

/-!
# Ids that predicates ask about

An id of one character would be a short name and a longer one a long name. Where
a switch can have that name, the id counts as an optional switch at the branch
and at all of its switch items, so that verification knows it under that name.
A predicate may as well ask about an id that no switch can have as a name, such
as `dry.run`. Nothing declares it; where unknown switches are rejected, the
inputs that supply it are, although they are the only ones that the predicate
can hold of.
-/
namespace CommandRoutes

namespace NameKind

theorem dash_not_admitted (kind : NameKind) (name : String) :
    kind.admits ("-" ++ name) = false := by
  have hlist : ("-" ++ name).toList = '-' :: name.toList := by simp
  cases kind with
  | short =>
      change isShortName ("-" ++ name) = false
      unfold isShortName
      rw [hlist]
      cases name.toList <;> rfl
  | long =>
      change isLongName ("-" ++ name) = false
      unfold isLongName
      rw [hlist]
      cases name.toList <;> rfl

/-- A name with its dashes is told from all others, but for a short name that begins with a
dash. -/
theorem eq_of_dashes_append {kind kind' : NameKind} {name name' : String}
    (h : kind.dashes ++ name = kind'.dashes ++ name') (hadmits : kind.admits name = true) :
    (kind' = kind ∧ name' = name) ∨ (kind = long ∧ kind' = short ∧ name' = "-" ++ name) := by
  have hdouble : ∀ text : String, "--" ++ text = "-" ++ ("-" ++ text) := by
    intro text
    rw [← String.append_assoc]
    rfl
  cases kind <;> cases kind'
  · exact .inl ⟨rfl, (String.append_right_inj _).mp h.symm⟩
  · change "-" ++ name = "--" ++ name' at h
    rw [hdouble, String.append_right_inj] at h
    rw [h, dash_not_admitted] at hadmits
    cases hadmits
  · change "--" ++ name = "-" ++ name' at h
    rw [hdouble, String.append_right_inj] at h
    exact .inr ⟨rfl, rfl, h.symm⟩
  · exact .inl ⟨rfl, (String.append_right_inj _).mp h.symm⟩

end NameKind

/-! ## Which names are reported as unknown -/

namespace SwitchTables
variable {tables : SwitchTables} {strict : Bool}

theorem entryFault?_eq_unknownSwitch {kind : NameKind} {others : Supplied} {name text : String}
    {values : List String}
    (h : tables.entryFault? strict kind others (name, values) = some (.unknownSwitch text)) :
    tables.find? kind name = none ∧ text = kind.dashes ++ name := by
  unfold entryFault? at h
  cases hfind : tables.find? kind name with
  | none =>
      rw [hfind] at h
      dsimp only at h
      split_ifs at h
      cases h
      exact ⟨rfl, rfl⟩
  | some switch =>
      rw [hfind] at h
      dsimp only at h
      -- neither of the faults of a known switch is this one
      cases hother : (switch.nameOf kind.other).filter others.contains with
      | some otherName =>
          rw [hother] at h
          cases kind <;> cases h
      | none =>
          rw [hother] at h
          obtain ⟨parameter, _, hfault⟩ := Option.map_eq_some_iff.mp h
          cases hfault

/-- The first fault is that of a supplied switch or names a required one. -/
theorem of_firstFault? {short long : Supplied} {fault : Fault}
    (h : tables.firstFault? strict short long = some fault) :
    (∃ kind name values, (Supplied.under short long kind).get? name = some values ∧
      tables.entryFault? strict kind (.under short long kind.other) (name, values) = some fault) ∨
    ∃ switch ∈ tables.required, fault = .absentSwitch switch.spelling := by
  unfold firstFault? at h
  rcases Option.or_eq_some_iff.mp h with h | ⟨_, h⟩
  · obtain ⟨entry, hmem, hfault⟩ := List.exists_of_findSome?_eq_some h
    exact .inl ⟨.short, entry.1, entry.2, NameMap.mem_entries.mp hmem, hfault⟩
  · rcases Option.or_eq_some_iff.mp h with h | ⟨_, h⟩
    · obtain ⟨entry, hmem, hfault⟩ := List.exists_of_findSome?_eq_some h
      exact .inl ⟨.long, entry.1, entry.2, NameMap.mem_entries.mp hmem, hfault⟩
    · obtain ⟨switch, hswitch, rfl⟩ := Option.map_eq_some_iff.mp h
      exact .inr ⟨switch, List.mem_of_find?_eq_some hswitch, rfl⟩

end SwitchTables

/-- The two maps where one switch is supplied. -/
def Supplied.alone (own : NameKind) (name : String) (values : List String) (kind : NameKind) :
    Supplied :=
  if kind = own then NameMap.empty.insert name values else .empty

/-- What is wrong with a switch that is supplied alone comes first. -/
theorem SwitchTables.firstFault?_alone {tables : SwitchTables} {strict : Bool} {kind : NameKind}
    {name : String} {values : List String} {fault : Fault}
    (h : tables.entryFault? strict kind .empty (name, values) = some fault) :
    tables.firstFault? strict (.alone kind name values .short) (.alone kind name values .long) =
      some fault := by
  have halone : (NameMap.empty.insert name values).entries = [(name, values)] := rfl
  have hempty : (NameMap.empty : Supplied).entries = [] := rfl
  cases kind with
  | short => simp [firstFault?, Supplied.alone, halone, h]
  | long => simp [firstFault?, Supplied.alone, halone, hempty, h]

namespace CommandTree
variable {t : CommandTree} {id : ItemId}

/-- What is reported as unknown is supplied, and nothing declares it. -/
theorem of_verify_eq_unknownSwitch {short long : Supplied} {options : Options} {text : String}
    (h : t.verify id short long options = .error (.unknownSwitch text)) :
    ∃ kind name, (Supplied.under short long kind).contains name = true ∧
      Declaration.nearest? (t.reachable id) kind name = none ∧ text = kind.dashes ++ name := by
  have unhelped : options.asksForHelp short long = false := by
    cases hhelp : options.asksForHelp short long with
    | false => rfl
    | true => simp [verify, hhelp] at h
  have hfault := (verify_eq_error_iff unhelped).mp h
  obtain ⟨kind, name, values, hget, hentry⟩ | ⟨_, _, hrequired⟩ :=
    SwitchTables.of_firstFault? hfault
  · obtain ⟨hfind, htext⟩ := SwitchTables.entryFault?_eq_unknownSwitch hentry
    rw [find?_switchTables, Option.map_eq_none_iff] at hfind
    exact ⟨kind, name, NameMap.contains_iff.mpr ⟨values, hget⟩, hfind, htext⟩
  · cases hrequired

/-- Where something declares a name, a report of it is about a short name that begins with a
dash. -/
theorem of_verify_eq_unknownSwitch_of_nearest? {kind : NameKind} {name : String} {d : Declaration}
    (hd : Declaration.nearest? (t.reachable id) kind name = some d) {short long : Supplied}
    {options : Options}
    (h : t.verify id short long options = .error (.unknownSwitch (kind.dashes ++ name))) :
    kind = .long ∧ short.contains ("-" ++ name) = true := by
  obtain ⟨kind, reported, hsupplied, hnearest, htext⟩ := of_verify_eq_unknownSwitch h
  rcases NameKind.eq_of_dashes_append htext (Declaration.admits_of_nearest? hd) with
    ⟨rfl, rfl⟩ | ⟨hlong, rfl, rfl⟩
  · rw [hd] at hnearest
    cases hnearest
  · exact ⟨hlong, hsupplied⟩

/-- Alone, a name that no switch can have is reported. -/
theorem verify_alone {kind : NameKind} {name : String} {values : List String} {options : Options}
    (h : kind.admits name = false) (strict : options.strict = true)
    (unhelped : options.asksForHelp (.alone kind name values .short)
      (.alone kind name values .long) = false) :
    t.verify id (.alone kind name values .short) (.alone kind name values .long) options =
      .error (.unknownSwitch (kind.dashes ++ name)) := by
  have hfind : (t.switchTables id).find? kind name = none := by
    cases hnearest : Declaration.nearest? (t.reachable id) kind name with
    | none => rw [find?_switchTables, hnearest, Option.map_none]
    | some d =>
        rw [Declaration.admits_of_nearest? hnearest] at h
        cases h
  rw [verify_eq_error_iff unhelped]
  exact SwitchTables.firstFault?_alone (by rw [SwitchTables.entryFault?, hfind, if_pos strict])

/-! ## The switches that predicates declare -/

/-- Some switch item of the branch has a predicate with this id. -/
def AsksAbout (t : CommandTree) (branch : ItemId) (id : String) : Prop :=
  ∃ item ∈ t.occupants branch .switchItem, ∃ predicates,
    t.predicates? item = some predicates ∧ ∃ p ∈ predicates, p.id = id

theorem AsksAbout.mem_askedIds {branch : ItemId} {name : String} (asks : t.AsksAbout branch name) :
    name ∈ t.askedIds branch := by
  obtain ⟨item, hitem, predicates, hpredicates, p, hp, rfl⟩ := asks
  refine List.mem_flatMap.mpr ⟨item, hitem, ?_⟩
  rw [hpredicates]
  exact List.mem_map_of_mem hp

theorem WellFormed.holder?_of_mem_occupants (w : t.WellFormed) {branch : ItemId}
    (h : id ∈ t.occupants branch .switchItem) : t.holder? id = some branch := by
  obtain ⟨hparent, hslot⟩ := w.occupant h
  rw [holder?, if_pos hslot, hparent]

/-- An id that can be a name is declared at the branch and at each of its switch items. -/
theorem WellFormed.exists_nearest?_of_asksAbout (w : t.WellFormed) {branch target : ItemId}
    {name : String} (asks : t.AsksAbout branch name)
    (near : target = branch ∨ target ∈ t.occupants branch .switchItem)
    (admits : (NameKind.ofId name).admits name = true) :
    ∃ d, Declaration.nearest? (t.reachable target) (.ofId name) name = some d := by
  have hasked : (t.holder? target).getD target = branch := by
    rcases near with rfl | near
    · obtain ⟨item, hitem, _⟩ := asks
      obtain ⟨b, hb, _⟩ := exists_branch_of_mem_occupants hitem
      rw [holder?_of_branch? hb]
      rfl
    · rw [w.holder?_of_mem_occupants near]
      rfl
  have hmem : ⟨.only _ name admits, false⟩ ∈ t.reachable target := by
    rw [reachable, hasked]
    exact List.mem_append_right _
      (List.mem_filterMap.mpr ⟨name, asks.mem_askedIds, Declaration.ofId?_of_admits admits⟩)
  refine Declaration.exists_nearest?_iff.mpr ⟨_, hmem, ?_⟩
  rw [Switch.nameOf_only, if_pos rfl]

/-- At a branch whose predicates ask about an id, and at its switch items, the id is never reported
as unknown if a switch can have it as its name; a report that reads the same is about a short name
that begins with a dash. An id that no switch can have as its name makes every input that supplies
it fail where unknown switches are rejected, and supplied alone it is what is reported. -/
theorem Reachable.verify_asked {t : CommandTree} (h : t.Reachable) {branch target : ItemId}
    {name : String} (asks : t.AsksAbout branch name)
    (near : target = branch ∨ target ∈ t.occupants branch .switchItem) {kind : NameKind}
    (hkind : kind = .ofId name) :
    (kind.admits name = true → ∀ short long options,
      t.verify target short long options = .error (.unknownSwitch (kind.dashes ++ name)) →
      kind = .long ∧ short.contains ("-" ++ name) = true) ∧
    (kind.admits name = false → ∀ options : Options, options.strict = true →
      (∀ short long, options.asksForHelp short long = false →
        (short.contains name = true ∨ long.contains name = true) →
        t.verify target short long options ≠ .ok ()) ∧
      ∀ values, options.asksForHelp (.alone kind name values .short)
          (.alone kind name values .long) = false →
        t.verify target (.alone kind name values .short) (.alone kind name values .long) options =
          .error (.unknownSwitch (kind.dashes ++ name))) := by
  subst hkind
  constructor
  · intro admits short long options hverify
    obtain ⟨d, hd⟩ := h.wellFormed.exists_nearest?_of_asksAbout asks near admits
    exact of_verify_eq_unknownSwitch_of_nearest? hd hverify
  · intro admits options strict
    refine ⟨fun short long unhelped hsupplied hverify => ?_,
      fun values unhelped => verify_alone admits strict unhelped⟩
    have accepted := accepted_of_verify unhelped hverify
    have unknown : ∀ kind, (Supplied.under short long kind).contains name = true → False := by
      intro kind hsupplied
      obtain ⟨d, hd⟩ := accepted.known strict kind name hsupplied
      -- a declared name is admitted by its kind, which is then the kind of the id
      have hadmits : kind.admits name = true := Declaration.admits_of_nearest? hd
      rw [NameKind.kind_ofId_of_admits hadmits, admits] at hadmits
      cases hadmits
    rcases hsupplied with hshort | hlong
    · exact unknown .short hshort
    · exact unknown .long hlong

/-- The id with a dash inside is a name, and is known at the switch item that asks about it. -/
theorem verify_asked_long_id :
    let t := (CommandTree.new.perform (.route "x[dry-run]")).tree
    t.Reachable ∧ t.AsksAbout 1 "dry-run" ∧ 2 ∈ t.occupants 1 .switchItem ∧
      ∀ short long options,
        t.verify 2 short long options = .error (.unknownSwitch "--dry-run") →
        short.contains "-dry-run" = true := by
  intro t
  have reached : t.Reachable := .perform _ .new
  have hmem : 2 ∈ t.occupants 1 .switchItem := by decide +kernel
  have asks : t.AsksAbout 1 "dry-run" :=
    ⟨2, hmem, [⟨"dry-run", none⟩], by decide +kernel, ⟨"dry-run", none⟩, by simp, rfl⟩
  refine ⟨reached, asks, hmem, fun short long options hverify => ?_⟩
  have hkind : NameKind.long = .ofId "dry-run" := by decide +kernel
  exact ((reached.verify_asked asks (.inr hmem) hkind).1 (by decide +kernel) short long options
    hverify).2

/-- The switch item that asks about `dry.run` is selected by an input that supplies it, and the
switch is then reported as unknown. -/
theorem asked_id_reported_unknown :
    let t := (CommandTree.new.perform (.route "x[dry.run]")).tree
    let long : Supplied := NameMap.empty.insert "dry.run" []
    t.Routed ∧ t.AsksAbout 1 "dry.run" ∧ t.selectItem? 1 .empty long = some 2 ∧
      t.verify 2 .empty long {} = .error (.unknownSwitch "--dry.run") ∧
      t.verify 1 .empty long {} = .error (.unknownSwitch "--dry.run") := by
  intro t long
  have hmem : 2 ∈ t.occupants 1 .switchItem := by decide +kernel
  have asks : t.AsksAbout 1 "dry.run" :=
    ⟨2, hmem, [⟨"dry.run", none⟩], by decide +kernel, ⟨"dry.run", none⟩, by simp, rfl⟩
  exact ⟨.perform trivial .new, asks, by decide +kernel, by decide +kernel, by decide +kernel⟩

end CommandTree
end CommandRoutes
