import CommandRoutes.Proofs.Tree.Growing
import CommandRoutes.Proofs.Verification.Rules
import Mathlib.Data.List.Perm.Basic

/-!
# Merged views

Merging goes through four collections one after the other: the supplied short
switches, the supplied long ones, and the optional switches that stand under
short and under long names. Within each it may take the entries in any order.
What is supplied is written first, and a default is written only where none of
the names of its switch is there, so that it replaces nothing. Where an input is
accepted and unknown switches are rejected, every supplied name is found with
the values that were supplied under it, in whatever order.
-/
namespace CommandRoutes

theorem NameKind.other_eq_of_ne {kind own : NameKind} (h : kind ≠ own) : kind.other = own := by
  cases kind <;> cases own <;> first | rfl | exact absurd rfl h

theorem Switch.mem_names {switch : Switch} {name : String} :
    name ∈ switch.names ↔ ∃ kind, switch.nameOf kind = some name := by
  simp only [names, List.mem_append, Option.mem_toList]
  constructor
  · rintro (h | h)
    · exact ⟨.short, h⟩
    · exact ⟨.long, h⟩
  · rintro ⟨kind, h⟩
    cases kind with
    | short => exact .inl h
    | long => exact .inr h

/-- A name of a switch is its name of the kind that admits it. -/
theorem Switch.nameOf_of_mem_names {switch : Switch} {kind : NameKind} {name : String}
    (h : name ∈ switch.names) (admits : kind.admits name = true) :
    switch.nameOf kind = some name := by
  obtain ⟨own, hown⟩ := mem_names.mp h
  rwa [← NameKind.eq_of_admits (NameKind.admits_of_nameOf hown) admits]

namespace SwitchTables
variable {tables : SwitchTables} {short long : Supplied}

/-! ## Orders -/

/-- The switches among the entries that have a default. -/
def withDefaults (entries : List (String × Switch)) : List Switch :=
  (entries.map Prod.snd).filter fun s => s.default.isSome

/-- The views that merging may come to when the entries of each collection are taken in any
order. -/
inductive Merged (tables : SwitchTables) (short long : Supplied) : Supplied → Prop
  | inOrder {shortEntries longEntries : List (String × List String)}
      {shortOptional longOptional : List (String × Switch)} :
      shortEntries.Perm short.entries → longEntries.Perm long.entries →
      shortOptional.Perm tables.short.optional.entries →
      longOptional.Perm tables.long.optional.entries →
      Merged tables short long (tables.mergeInOrder shortEntries longEntries
        (withDefaults shortOptional) (withDefaults longOptional))

theorem merged_merge : tables.Merged short long (tables.merge short long) :=
  .inOrder (.refl _) (.refl _) (.refl _) (.refl _)

/-- What the supplied switches write, one after the other. -/
def writes (tables : SwitchTables) (short long : List (String × List String)) :
    List (String × List String) :=
  short.flatMap (tables.written .short) ++ long.flatMap (tables.written .long)

theorem mergeInOrder_eq (short long : List (String × List String))
    (shortDefaults longDefaults : List Switch) :
    tables.mergeInOrder short long shortDefaults longDefaults =
      longDefaults.foldl writeDefault
        (shortDefaults.foldl writeDefault (.ofList (tables.writes short long))) :=
  List.foldl_append

theorem mem_writes {shortEntries longEntries : List (String × List String)}
    (hshort : shortEntries.Perm short.entries) (hlong : longEntries.Perm long.entries)
    {e : String × List String} :
    e ∈ tables.writes shortEntries longEntries ↔ ∃ kind name values,
      (Supplied.under short long kind).get? name = some values ∧
        e ∈ tables.written kind (name, values) := by
  simp only [writes, List.mem_append, List.mem_flatMap, hshort.mem_iff, hlong.mem_iff]
  constructor
  · rintro (⟨⟨name, values⟩, hmem, he⟩ | ⟨⟨name, values⟩, hmem, he⟩)
    · exact ⟨.short, name, values, NameMap.mem_entries.mp hmem, he⟩
    · exact ⟨.long, name, values, NameMap.mem_entries.mp hmem, he⟩
  · rintro ⟨kind, name, values, hget, he⟩
    cases kind with
    | short => exact .inl ⟨_, NameMap.mem_entries.mpr hget, he⟩
    | long => exact .inr ⟨_, NameMap.mem_entries.mpr hget, he⟩

/-! ## Defaults -/

/-- None of the names of the switch is in the view. -/
def Free (view : Supplied) (switch : Switch) : Prop :=
  ∀ name ∈ switch.names, view.contains name = false

instance (view : Supplied) (switch : Switch) : Decidable (Free view switch) :=
  inferInstanceAs (Decidable (∀ name ∈ switch.names, view.contains name = false))

variable {view : Supplied} {switch : Switch} {name : String}

theorem writeDefault_of_not_free (h : ¬Free view switch) : writeDefault view switch = view := by
  have htaken : switch.names.any view.contains = true := by
    simpa [Free, List.any_eq_true] using h
  unfold writeDefault
  cases switch.default with
  | none => rfl
  | some values => exact if_pos htaken

theorem get?_writeDefault_of_free (h : Free view switch) {values : List String}
    (hdefault : switch.default = some values) :
    (writeDefault view switch).get? name =
      if name ∈ switch.names then some values else view.get? name := by
  have hfree : switch.names.any view.contains = false :=
    List.any_eq_false.mpr fun n hn => by simp [h n hn]
  unfold writeDefault
  rw [hdefault]
  simp only [hfree, Bool.false_eq_true, if_false]
  split_ifs with hname
  · refine NameMap.get?_insertAll_of_mem (List.mem_map_of_mem hname) fun v hv => ?_
    obtain ⟨_, _, heq⟩ := List.mem_map.mp hv
    exact (Prod.mk.inj heq).2.symm
  · refine NameMap.get?_insertAll_of_not_mem fun e he => ?_
    obtain ⟨n, hn, rfl⟩ := List.mem_map.mp he
    rintro rfl
    exact hname hn

theorem get?_writeDefault_of_contains (h : view.contains name = true) :
    (writeDefault view switch).get? name = view.get? name := by
  by_cases hfree : Free view switch
  · cases hdefault : switch.default with
    | none => simp [writeDefault, hdefault]
    | some values =>
        have hname : name ∉ switch.names := fun hmem => by simp [hfree name hmem] at h
        rw [get?_writeDefault_of_free hfree hdefault, if_neg hname]
  · rw [writeDefault_of_not_free hfree]

/-- Defaults replace nothing. -/
theorem get?_foldl_writeDefault_of_contains {switches : List Switch}
    (h : view.contains name = true) :
    (switches.foldl writeDefault view).get? name = view.get? name := by
  induction switches generalizing view with
  | nil => rfl
  | cons s rest ih =>
      have hkeep : (writeDefault view s).get? name = view.get? name :=
        get?_writeDefault_of_contains h
      rw [List.foldl_cons, ih (by rwa [NameMap.contains, hkeep]), hkeep]

end SwitchTables

/-! ## Accepted input -/

namespace CommandTree
variable {t : CommandTree} {id : ItemId} {short long : Supplied}

/-- The switch that decides about a supplied name writes under this name too. -/
theorem mem_written {kind : NameKind} {name : String} {values : List String} {d : Declaration}
    (h : Declaration.nearest? (t.reachable id) kind name = some d) {e : String × List String} :
    e ∈ (t.switchTables id).written kind (name, values) ↔
      e.1 ∈ d.switch.names ∧ e.2 = values := by
  have hfind : (t.switchTables id).find? kind name = some d.switch := by
    rw [find?_switchTables, h, Option.map_some]
  obtain ⟨n, v⟩ := e
  simp only [SwitchTables.written, hfind, List.mem_map, Prod.mk.injEq]
  constructor
  · rintro ⟨_, hmem, rfl, rfl⟩
    exact ⟨hmem, rfl⟩
  · rintro ⟨hmem, hv⟩
    exact ⟨n, hmem, rfl, hv.symm⟩

/-- Whatever is written under a supplied name is what was supplied under it: a switch supplied
under another name of the same kind does not have this name, and one supplied under a name of the
other kind must not have it. -/
theorem eq_of_mem_written {supplied : NameKind → Supplied}
    (accepted : Accepted (t.reachable id) true supplied) {kind other : NameKind}
    {name otherName : String} {values otherValues written : List String}
    (hsupplied : (supplied kind).get? name = some values)
    (hother : (supplied other).get? otherName = some otherValues)
    (hwritten : (name, written) ∈ (t.switchTables id).written other (otherName, otherValues)) :
    written = values := by
  obtain ⟨d, hd⟩ := accepted.known rfl kind name (NameMap.contains_iff.mpr ⟨_, hsupplied⟩)
  have hcontains : (supplied other).contains otherName = true :=
    NameMap.contains_iff.mpr ⟨_, hother⟩
  obtain ⟨d', hd'⟩ := accepted.known rfl other otherName hcontains
  obtain ⟨hname, rfl⟩ := (mem_written hd').mp hwritten
  have hown := Switch.nameOf_of_mem_names hname (Declaration.admits_of_nearest? hd)
  by_cases hkind : kind = other
  · subst hkind
    cases hown.symm.trans (Declaration.nameOf_of_nearest? hd')
    exact Option.some.inj (hother.symm.trans hsupplied)
  · have hflip : other.other = kind := NameKind.other_eq_of_ne (Ne.symm hkind)
    have habsent := accepted.single other otherName d' hcontains hd' name (hflip ▸ hown)
    rw [hflip, NameMap.contains, hsupplied] at habsent
    cases habsent

/-- Where unknown switches are rejected and the input is accepted without asking for help, merging
loses no supplied value, in whatever order it goes about. -/
theorem mergedView_keeps_supplied {options : Options} (strict : options.strict = true)
    (unhelped : options.asksForHelp short long = false)
    (hverify : t.verify id short long options = .ok ()) :
    (t.switchTables id).Merged short long (t.mergedView id short long) ∧
    ∀ view, (t.switchTables id).Merged short long view → ∀ kind name values,
      (Supplied.under short long kind).get? name = some values → view.get? name = some values := by
  refine ⟨SwitchTables.merged_merge, ?_⟩
  rintro _ ⟨hshort, hlong, _, _⟩ kind name values hsupplied
  have accepted := accepted_of_verify unhelped hverify
  rw [strict] at accepted
  obtain ⟨d, hd⟩ := accepted.known rfl kind name (NameMap.contains_iff.mpr ⟨_, hsupplied⟩)
  have hname : name ∈ d.switch.names :=
    Switch.mem_names.mpr ⟨kind, Declaration.nameOf_of_nearest? hd⟩
  have hwritten := (SwitchTables.mem_writes hshort hlong).mpr
    ⟨kind, name, values, hsupplied, (mem_written (e := (name, values)) hd).mpr ⟨hname, rfl⟩⟩
  have hbase := NameMap.get?_insertAll_of_mem (m := .empty) hwritten fun v hv => by
    obtain ⟨other, otherName, otherValues, hother, hmem⟩ :=
      (SwitchTables.mem_writes hshort hlong).mp hv
    exact eq_of_mem_written accepted hsupplied hother hmem
  have hcontains := NameMap.contains_iff.mpr ⟨_, hbase⟩
  exact (SwitchTables.get?_foldl_writeDefault_of_contains hcontains).trans hbase

/-- Two switches share a long name, and each is supplied under its short one. -/
theorem mergedView_keeps_supplied_shared_name :
    let out : Switch :=
      { short := some "o", long := some "out", default := some ["a"], named := rfl,
        short_wellFormed := by decide, long_wellFormed := by decide }
    let write : Switch :=
      { short := some "w", long := some "out", named := rfl,
        short_wellFormed := by decide, long_wellFormed := by decide }
    let t := (((CommandTree.new.perform (.route "x")).tree.perform (.optional 1 out)).tree.perform
      (.commonRequired 0 write)).tree
    let short : Supplied := .ofList [("o", ["1"]), ("w", ["2"])]
    t.verify 1 short .empty {} = .ok () ∧
      (t.mergedView 1 short .empty).get? "o" = some ["1"] ∧
      (t.mergedView 1 short .empty).get? "w" = some ["2"] := by
  intro out write t short
  have hverify : t.verify 1 short .empty {} = .ok () := by decide +kernel
  obtain ⟨hmerged, hkeeps⟩ := mergedView_keeps_supplied rfl (by decide +kernel) hverify
  exact ⟨hverify, hkeeps _ hmerged .short "o" ["1"] (by decide +kernel),
    hkeeps _ hmerged .short "w" ["2"] (by decide +kernel)⟩

end CommandTree
end CommandRoutes
