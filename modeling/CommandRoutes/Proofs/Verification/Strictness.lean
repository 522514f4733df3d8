import CommandRoutes.Proofs.Verification.Asking
import Mathlib.Data.List.Find

/-!
# Strictness

A lenient verification passes over the names that nothing declares and over nothing else. It comes
to what the strict one comes to once these names are taken out. The other names of switches are
looked up among all that is supplied, and required switches are sought there; but the names looked
up are declared ones, so nothing is missed among the declared names alone. On one and the same
input the two verifications differ only where the strict one reports an unknown switch.
-/
namespace CommandRoutes

/-- A search that finds nothing in the entries left out, and the same in all others. -/
theorem findSome?_filter {α β : Type} {l : List α} {p : α → Bool} {f g : α → Option β}
    (left : ∀ a ∈ l, p a = false → f a = none) (alike : ∀ a ∈ l, p a = true → g a = f a) :
    (l.filter p).findSome? g = l.findSome? f := by
  induction l with
  | nil => rfl
  | cons a rest ih =>
      obtain ⟨hleft, hrest⟩ := List.forall_mem_cons.mp left
      obtain ⟨halike, hrest'⟩ := List.forall_mem_cons.mp alike
      have ih := ih hrest hrest'
      cases hp : p a with
      | true =>
          rw [List.filter_cons_of_pos hp, List.findSome?_cons, List.findSome?_cons, halike hp, ih]
      | false =>
          rw [List.filter_cons_of_neg (by simp [hp]), ih, List.findSome?_cons, hleft hp]

namespace SwitchTables
variable {tables : SwitchTables} {strict : Bool} {kind : NameKind} {others others' : Supplied}
  {entry : String × List String}

theorem entryFault?_of_unknown (h : tables.find? kind entry.1 = none) :
    tables.entryFault? strict kind others entry =
      if strict then some (.unknownSwitch (kind.dashes ++ entry.1)) else none := by
  rw [entryFault?, h]

/-- What is wrong with a known switch has nothing to do with strictness, and of the other map only
the other name of the switch matters. -/
theorem entryFault?_of_known {switch : Switch} (h : tables.find? kind entry.1 = some switch)
    (alike : ∀ otherName, switch.nameOf kind.other = some otherName →
      others'.contains otherName = others.contains otherName) (strict' : Bool) :
    tables.entryFault? strict' kind others' entry =
      tables.entryFault? strict kind others entry := by
  have hother : (switch.nameOf kind.other).filter others'.contains =
      (switch.nameOf kind.other).filter others.contains := by
    cases hname : switch.nameOf kind.other with
    | none => rfl
    | some otherName => rw [Option.filter_some, Option.filter_some, alike otherName hname]
  simp only [entryFault?, h, hother]

/-- Without strictness nothing is reported as unknown. -/
theorem entryFault?_lenient_ne (text : String) :
    tables.entryFault? false kind others entry ≠ some (.unknownSwitch text) := by
  intro h
  obtain ⟨hfind, _⟩ := entryFault?_eq_unknownSwitch h
  rw [entryFault?_of_unknown hfind] at h
  cases h

/-- A strict pass finds what a lenient one finds unless it meets an unknown switch before. -/
theorem findSome?_strict (tables : SwitchTables) (kind : NameKind) (others : Supplied)
    (entries : List (String × List String)) :
    entries.findSome? (tables.entryFault? true kind others) =
        entries.findSome? (tables.entryFault? false kind others) ∨
      ∃ text, entries.findSome? (tables.entryFault? true kind others) =
        some (.unknownSwitch text) := by
  induction entries with
  | nil => exact .inl rfl
  | cons entry rest ih =>
      rw [List.findSome?_cons, List.findSome?_cons]
      cases hfind : tables.find? kind entry.1 with
      | none => exact .inr ⟨_, by rw [entryFault?_of_unknown hfind]; rfl⟩
      | some switch =>
          rw [entryFault?_of_known hfind (fun _ _ => rfl) false]
          cases tables.entryFault? true kind others entry with
          | some fault => exact .inl rfl
          | none => exact ih

theorem firstFault?_strict (tables : SwitchTables) (short long : Supplied) :
    tables.firstFault? true short long = tables.firstFault? false short long ∨
      ∃ text, tables.firstFault? true short long = some (.unknownSwitch text) := by
  unfold firstFault?
  obtain hshort | ⟨text, hshort⟩ := findSome?_strict tables .short long short.entries
  · rw [hshort]
    cases short.entries.findSome? (tables.entryFault? false .short long) with
    | some fault => exact .inl rfl
    | none =>
        obtain hlong | ⟨text, hlong⟩ := findSome?_strict tables .long short long.entries
        · exact .inl (by rw [hlong])
        · exact .inr ⟨text, by rw [hlong]; rfl⟩
  · exact .inr ⟨text, by rw [hshort]; rfl⟩

theorem firstFault?_lenient_ne (short long : Supplied) (text : String) :
    tables.firstFault? false short long ≠ some (.unknownSwitch text) := by
  intro h
  obtain ⟨kind, name, values, _, hentry⟩ | ⟨switch, _, hrequired⟩ := of_firstFault? h
  · exact entryFault?_lenient_ne text hentry
  · cases hrequired

end SwitchTables

namespace CommandTree

/-- What is supplied under names that are declared for the item. -/
def recognized (t : CommandTree) (id : ItemId) (kind : NameKind) (supplied : Supplied) : Supplied :=
  supplied.restrict fun name => Declaration.Declares (t.reachable id) kind name

variable {t : CommandTree} {id : ItemId} {kind : NameKind} {name : String}

theorem get?_recognized (supplied : Supplied) :
    (t.recognized id kind supplied).get? name =
      if Declaration.Declares (t.reachable id) kind name then supplied.get? name else none := by
  rw [recognized, NameMap.get?_restrict]
  simp only [decide_eq_true_eq]

theorem contains_recognized (h : Declaration.Declares (t.reachable id) kind name)
    (supplied : Supplied) :
    (t.recognized id kind supplied).contains name = supplied.contains name := by
  rw [NameMap.contains, get?_recognized, if_pos h, NameMap.contains]

/-- Where all that is supplied is declared, nothing is taken out. -/
theorem recognized_eq_self {supplied : Supplied}
    (h : ∀ name, supplied.contains name = true → Declaration.Declares (t.reachable id) kind name) :
    t.recognized id kind supplied = supplied := by
  refine NameMap.ext_get? fun name => ?_
  rw [get?_recognized]
  split_ifs with hdeclares
  · rfl
  · cases hget : supplied.get? name with
    | none => rfl
    | some values => exact absurd (h name (NameMap.contains_iff.mpr ⟨values, hget⟩)) hdeclares

/-- A switch that decides about a name is declared under both of its names. -/
theorem declares_of_find? {switch : Switch} (h : (t.switchTables id).find? kind name = some switch)
    {own : NameKind} {ownName : String} (hname : switch.nameOf own = some ownName) :
    Declaration.Declares (t.reachable id) own ownName := by
  rw [find?_switchTables] at h
  obtain ⟨d, hd, rfl⟩ := Option.map_eq_some_iff.mp h
  exact ⟨d, Declaration.mem_of_nearest? hd, hname⟩

/-- One pass: what is taken out is what the lenient pass skips. -/
theorem findSome?_recognized (t : CommandTree) (id : ItemId) (kind : NameKind)
    (supplied others : Supplied) :
    (t.recognized id kind supplied).entries.findSome?
        ((t.switchTables id).entryFault? true kind (t.recognized id kind.other others)) =
      supplied.entries.findSome? ((t.switchTables id).entryFault? false kind others) := by
  refine findSome?_filter (fun entry _ hunknown => ?_) fun entry _ hknown => ?_
  · have hfind : (t.switchTables id).find? kind entry.1 = none := by
      rw [find?_switchTables, Option.map_eq_none_iff, Declaration.nearest?_eq_none_iff]
      exact of_decide_eq_false hunknown
    rw [SwitchTables.entryFault?_of_unknown hfind]
    rfl
  · obtain ⟨switch, hswitch⟩ := declares_iff_find?.mp (of_decide_eq_true hknown)
    refine SwitchTables.entryFault?_of_known hswitch (fun otherName hother => ?_) true
    exact contains_recognized (declares_of_find? hswitch hother) others

theorem isSupplied_recognized {switch : Switch} (h : switch ∈ (t.switchTables id).required)
    (short long : Supplied) :
    SwitchTables.isSupplied (.under (t.recognized id .short short) (t.recognized id .long long))
        switch =
      SwitchTables.isSupplied (.under short long) switch := by
  rw [required_switchTables] at h
  obtain ⟨d, hd, rfl⟩ := List.mem_map.mp h
  have hsame : ∀ kind name, d.switch.nameOf kind = some name →
      (Supplied.under (t.recognized id .short short) (t.recognized id .long long) kind).contains
        name = (Supplied.under short long kind).contains name := by
    intro kind name hname
    have hdeclares : Declaration.Declares (t.reachable id) kind name :=
      ⟨d, (List.mem_filter.mp hd).1, hname⟩
    cases kind with
    | short => exact contains_recognized hdeclares short
    | long => exact contains_recognized hdeclares long
  rw [Bool.eq_iff_iff, SwitchTables.isSupplied_iff, SwitchTables.isSupplied_iff]
  refine exists_congr fun kind => exists_congr fun name => and_congr_right fun hname => ?_
  rw [hsame kind name hname]

/-- To take something out asks for help no more than to leave it. -/
theorem asksForHelp_recognized {options : Options} {short long : Supplied}
    (unhelped : options.asksForHelp short long = false) :
    options.asksForHelp (t.recognized id .short short) (t.recognized id .long long) = false := by
  have hless : ∀ kind name (supplied : Supplied), supplied.contains name = false →
      (t.recognized id kind supplied).contains name = false := by
    intro kind name supplied habsent
    rw [NameMap.contains_eq_false_iff] at habsent ⊢
    rw [get?_recognized, habsent, ite_self]
  cases hhelp : options.helpBySwitch with
  | false => simp [Options.asksForHelp, hhelp]
  | true =>
      simp only [Options.asksForHelp, hhelp, Bool.true_and, Bool.or_eq_false_iff] at unhelped ⊢
      exact ⟨hless .short _ short unhelped.1, hless .long _ long unhelped.2⟩

theorem firstFault?_recognized (short long : Supplied) :
    (t.switchTables id).firstFault? true (t.recognized id .short short)
        (t.recognized id .long long) =
      (t.switchTables id).firstFault? false short long := by
  have hrequired : (t.switchTables id).required.find? (fun s => !SwitchTables.isSupplied
        (.under (t.recognized id .short short) (t.recognized id .long long)) s) =
      (t.switchTables id).required.find? fun s => !SwitchTables.isSupplied (.under short long) s :=
    List.find?_congr fun switch hswitch => by rw [isSupplied_recognized hswitch]
  have hshort := t.findSome?_recognized id .short short long
  have hlong := t.findSome?_recognized id .long long short
  simp only [NameKind.other] at hshort hlong
  rw [SwitchTables.firstFault?, hshort, hlong, hrequired, SwitchTables.firstFault?]

/-- A lenient verification is a strict one of what is declared, and the strict one accepts an input
where the lenient one does and all of it is declared. The two differ on one input only where the
strict one reports an unknown switch, which the lenient one never does. -/
theorem verify_lenient {short long : Supplied} {options : Options}
    (unhelped : options.asksForHelp short long = false) :
    let strict := { options with strict := true }
    let lenient := { options with strict := false }
    t.verify id (t.recognized id .short short) (t.recognized id .long long) strict =
        t.verify id short long lenient ∧
    (t.verify id short long strict = .ok () ↔ t.verify id short long lenient = .ok () ∧
      t.recognized id .short short = short ∧ t.recognized id .long long = long) ∧
    (t.verify id short long strict = t.verify id short long lenient ∨
      ∃ text, t.verify id short long strict = .error (.unknownSwitch text)) ∧
    ∀ text, t.verify id short long lenient ≠ .error (.unknownSwitch text) := by
  intro strict lenient
  have unhelpedStrict : strict.asksForHelp short long = false := unhelped
  have unhelpedLenient : lenient.asksForHelp short long = false := unhelped
  have hsame : t.verify id (t.recognized id .short short) (t.recognized id .long long) strict =
      t.verify id short long lenient :=
    verify_congr (asksForHelp_recognized unhelpedStrict) unhelpedLenient
      (firstFault?_recognized short long)
  refine ⟨hsame, ?_, ?_, ?_⟩
  · constructor
    · intro hverify
      have known := (accepted_of_verify unhelpedStrict hverify).known rfl
      have hshort : t.recognized id .short short = short := recognized_eq_self fun name hname =>
        Declaration.exists_nearest?_iff.mp (known .short name hname)
      have hlong : t.recognized id .long long = long := recognized_eq_self fun name hname =>
        Declaration.exists_nearest?_iff.mp (known .long name hname)
      rw [hshort, hlong] at hsame
      exact ⟨hsame.symm.trans hverify, hshort, hlong⟩
    · rintro ⟨hverify, hshort, hlong⟩
      rw [hshort, hlong] at hsame
      exact hsame.trans hverify
  · obtain hfault | ⟨text, hunknown⟩ := (t.switchTables id).firstFault?_strict short long
    · exact .inl (verify_congr unhelpedStrict unhelpedLenient hfault)
    · exact .inr ⟨text, (verify_eq_error_iff unhelpedStrict).mpr hunknown⟩
  · intro text hreport
    have hfault := (verify_eq_error_iff unhelpedLenient).mp hreport
    exact SwitchTables.firstFault?_lenient_ne short long text hfault

/-- Two switches share a long name, and the farther one is supplied under both of its names. The
long name is the nearer one's, but it is a declared one and is not taken out with the unknown
name, which the strict verification reports. -/
theorem verify_lenient_shared_name :
    let near : Switch :=
      { short := some "n", long := some "out", named := rfl,
        short_wellFormed := by decide, long_wellFormed := by decide }
    let far : Switch :=
      { short := some "b", long := some "out", named := rfl,
        short_wellFormed := by decide, long_wellFormed := by decide }
    let t := (((CommandTree.new.perform (.route "x")).tree.perform (.required 1 near)).tree.perform
      (.commonRequired 0 far)).tree
    let short : Supplied := .ofList [("a", []), ("b", [])]
    let long : Supplied := .ofList [("out", []), ("typo", [])]
    ({} : Options).asksForHelp short long = false ∧
      t.verify 1 (t.recognized 1 .short short) (t.recognized 1 .long long) {} =
        .error (.bothNamesSupplied "b" "out") ∧
      t.verify 1 short long { strict := false } = .error (.bothNamesSupplied "b" "out") ∧
      t.verify 1 short long {} = .error (.unknownSwitch "-a") := by
  intro near far t short long
  have unhelped : ({} : Options).asksForHelp short long = false := by decide +kernel
  have hlenient : t.verify 1 short long { strict := false } =
      .error (.bothNamesSupplied "b" "out") := by decide +kernel
  exact ⟨unhelped, (verify_lenient unhelped).1.trans hlenient, hlenient, by decide +kernel⟩

end CommandTree
end CommandRoutes
