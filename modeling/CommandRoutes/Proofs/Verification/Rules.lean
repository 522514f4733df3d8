import CommandRoutes.Proofs.Tree.Navigation
import CommandRoutes.Proofs.Verification.Tables

/-!
# The rules of verification

Verification accepts an input by rules that speak of the switches that count at
an item alone, without tables, marks and passes. The passes are first brought
into one form: the first fault among the short names, else among the long ones,
else the first required switch that is supplied under none of its names.
-/
namespace CommandRoutes

/-- The two maps of supplied switches by the kind of their names. -/
def Supplied.under (short long : Supplied) : NameKind → Supplied
  | .short => short
  | .long => long

theorem Options.asksForHelp_iff {options : Options} {short long : Supplied} :
    options.asksForHelp short long = true ↔
      options.helpBySwitch = true ∧
        (short.contains options.helpShort = true ∨ long.contains options.helpLong = true) := by
  simp [asksForHelp]

/-- What is supplied meets the demands of the switches that count. -/
structure Accepted (ds : List Declaration) (strict : Bool) (supplied : NameKind → Supplied) :
    Prop where
  /-- Each name is known, where unknown names are rejected. -/
  known : strict = true → ∀ kind name, (supplied kind).contains name = true →
    ∃ d, Declaration.nearest? ds kind name = some d
  /-- No switch is supplied under both of its names. -/
  single : ∀ kind name d, (supplied kind).contains name = true →
    Declaration.nearest? ds kind name = some d →
    ∀ otherName, d.switch.nameOf kind.other = some otherName →
      (supplied kind.other).contains otherName = false
  /-- There are as many values as the nearest declaration has parameters. -/
  valued : ∀ kind name values d, (supplied kind).get? name = some values →
    Declaration.nearest? ds kind name = some d → d.switch.parameters.length ≤ values.length
  /-- Each required switch is supplied under one of its names, whichever switch is nearest. -/
  complete : ∀ d ∈ ds, d.isRequired = true →
    ∃ kind name, d.switch.nameOf kind = some name ∧ (supplied kind).contains name = true

namespace SwitchTables

/-- What is wrong with one supplied switch. -/
def entryFault? (tables : SwitchTables) (strict : Bool) (kind : NameKind) (others : Supplied)
    (entry : String × List String) : Option Fault :=
  match tables.find? kind entry.1 with
  | none => if strict then some (.unknownSwitch (kind.dashes ++ entry.1)) else none
  | some switch =>
    match (switch.nameOf kind.other).filter others.contains with
    | some otherName => some (kind.bothSupplied entry.1 otherName)
    | none => valueFault? switch entry.2

/-- The required switches are found under all their names, though not always as themselves. -/
def Known (tables : SwitchTables) : Prop :=
  ∀ switch ∈ tables.required, ∀ kind name, switch.nameOf kind = some name →
    ∃ nearest, tables.find? kind name = some nearest

variable {tables : SwitchTables} {strict : Bool} {kind : NameKind} {others : Supplied}

theorem satisfy_map (name : String) (mark : Switch → Bool) :
    tables.satisfy kind name (tables.required.map mark) =
      tables.required.map fun s => mark s && s.nameOf kind != some name := by
  rw [satisfy, List.zipWith_map_right]
  induction tables.required with
  | nil => rfl
  | cons s rest ih => rw [List.zipWith_cons_cons, ih, List.map_cons]

/-- A pass stops at the first fault; otherwise it leaves the marks of the switches that none of
its names satisfies. -/
theorem check_eq (known : tables.Known) (entries : List (String × List String))
    (mark : Switch → Bool) :
    tables.check strict kind others entries (tables.required.map mark) =
      match entries.findSome? (tables.entryFault? strict kind others) with
      | some fault => .error fault
      | none => .ok (tables.required.map fun s =>
          mark s && entries.all fun e => s.nameOf kind != some e.1) := by
  induction entries generalizing mark with
  | nil => simp [check]
  | cons entry rest ih =>
      obtain ⟨name, values⟩ := entry
      simp only [List.findSome?_cons, List.all_cons, ← Bool.and_assoc]
      unfold check entryFault?
      cases hfind : tables.find? kind name with
      | none =>
          dsimp only
          cases strict with
          | true => rfl
          | false =>
              -- no required switch has a name that is not found
              have unnamed : ∀ s ∈ tables.required,
                  (mark s && s.nameOf kind != some name) = mark s := by
                intro s hs
                have hne : s.nameOf kind ≠ some name := by
                  intro hname
                  obtain ⟨nearest, hnearest⟩ := known s hs kind name hname
                  rw [hfind] at hnearest
                  cases hnearest
                simp [hne]
              rw [← List.map_congr_left unnamed]
              exact ih _
      | some switch =>
          dsimp only
          cases hother : (switch.nameOf kind.other).filter others.contains with
          | some otherName => rfl
          | none =>
              dsimp only
              cases hvalue : valueFault? switch values with
              | some fault => rfl
              | none =>
                  dsimp only
                  rw [satisfy_map]
                  exact ih _

theorem find?_zip_map (switches : List Switch) (mark : Switch → Bool) :
    (switches.zip (switches.map mark)).find? Prod.snd =
      (switches.find? mark).map fun s => (s, true) := by
  induction switches with
  | nil => rfl
  | cons s rest ih =>
      rw [List.map_cons, List.zip_cons_cons, List.find?_cons, List.find?_cons]
      cases hs : mark s with
      | true => rfl
      | false => exact ih

/-- Whether a switch is supplied under one of its names. -/
def isSupplied (supplied : NameKind → Supplied) (switch : Switch) : Bool :=
  switch.short.any (supplied .short).contains || switch.long.any (supplied .long).contains

/-- The first thing wrong with an input. -/
def firstFault? (tables : SwitchTables) (strict : Bool) (short long : Supplied) : Option Fault :=
  (short.entries.findSome? (tables.entryFault? strict .short long)).or <|
  (long.entries.findSome? (tables.entryFault? strict .long short)).or <|
  (tables.required.find? fun s => !isSupplied (.under short long) s).map
    fun s => .absentSwitch s.spelling

theorem all_entries_ne (supplied : Supplied) (name : Option String) :
    (supplied.entries.all fun e => name != some e.1) = !name.any supplied.contains := by
  cases name with
  | none => simp
  | some n =>
      cases hn : supplied.get? n with
      | none =>
          have hne : ∀ e ∈ supplied.entries, some n != some e.1 := by
            rintro ⟨k, values⟩ he
            simp only [bne_iff_ne, ne_eq, Option.some.injEq]
            rintro rfl
            rw [NameMap.mem_entries.mp he] at hn
            cases hn
          simp [List.all_eq_true.mpr hne, NameMap.contains, hn]
      | some values =>
          have hmem := NameMap.mem_entries.mpr hn
          have hall : (supplied.entries.all fun e => some n != some e.1) = false :=
            List.all_eq_false.mpr ⟨_, hmem, by simp⟩
          simp [hall, NameMap.contains, hn]

theorem verify_eq (known : tables.Known) (short long : Supplied) :
    tables.verify strict short long =
      match tables.firstFault? strict short long with
      | some fault => .error fault
      | none => .ok () := by
  unfold verify firstFault?
  dsimp only
  rw [check_eq known]
  cases short.entries.findSome? (tables.entryFault? strict .short long) with
  | some fault => rfl
  | none =>
      dsimp only
      rw [check_eq known]
      cases long.entries.findSome? (tables.entryFault? strict .long short) with
      | some fault => rfl
      | none =>
          dsimp only
          simp only [all_entries_ne, Bool.true_and, Option.none_or, find?_zip_map]
          have hmissing : ∀ s : Switch,
              (!(s.nameOf .short).any short.contains && !(s.nameOf .long).any long.contains) =
                !isSupplied (.under short long) s := fun s => (Bool.not_or ..).symm
          simp only [hmissing]
          cases tables.required.find? fun s => !isSupplied (.under short long) s <;> rfl

/-! ## Without faults -/

theorem valueFault?_eq_none {switch : Switch} {values : List String} :
    valueFault? switch values = none ↔ switch.parameters.length ≤ values.length := by
  simp [valueFault?]

theorem entryFault?_eq_none {name : String} {values : List String} :
    tables.entryFault? strict kind others (name, values) = none ↔
      (strict = true → ∃ switch, tables.find? kind name = some switch) ∧
      ∀ switch, tables.find? kind name = some switch →
        (∀ otherName, switch.nameOf kind.other = some otherName →
          others.contains otherName = false) ∧
        switch.parameters.length ≤ values.length := by
  unfold entryFault?
  cases hfind : tables.find? kind name with
  | none => simp
  | some switch =>
      dsimp only
      cases hother : (switch.nameOf kind.other).filter others.contains with
      | some otherName =>
          obtain ⟨hname, hsupplied⟩ := Option.filter_eq_some_iff.mp hother
          simp [hname, hsupplied]
      | none =>
          have hfree : ∀ otherName, switch.nameOf kind.other = some otherName →
              others.contains otherName = false := by
            simpa [Option.filter_eq_none_iff] using hother
          simpa [valueFault?_eq_none] using fun _ => hfree

theorem isSupplied_iff {supplied : NameKind → Supplied} {switch : Switch} :
    isSupplied supplied switch = true ↔
      ∃ kind name, switch.nameOf kind = some name ∧ (supplied kind).contains name = true := by
  simp only [isSupplied, Bool.or_eq_true, Option.any_eq_true]
  constructor
  · rintro (⟨name, hname, hs⟩ | ⟨name, hname, hs⟩)
    · exact ⟨.short, name, hname, hs⟩
    · exact ⟨.long, name, hname, hs⟩
  · rintro ⟨kind, name, hname, hs⟩
    cases kind with
    | short => exact .inl ⟨name, hname, hs⟩
    | long => exact .inr ⟨name, hname, hs⟩

theorem findSome?_entries_eq_none {supplied : Supplied} :
    supplied.entries.findSome? (tables.entryFault? strict kind others) = none ↔
      ∀ name values, supplied.get? name = some values →
        tables.entryFault? strict kind others (name, values) = none := by
  rw [List.findSome?_eq_none_iff]
  constructor
  · intro h name values hget
    exact h _ (NameMap.mem_entries.mpr hget)
  · rintro h ⟨name, values⟩ hmem
    exact h name values (NameMap.mem_entries.mp hmem)

theorem firstFault?_eq_none {short long : Supplied} :
    tables.firstFault? strict short long = none ↔
      (∀ kind name values, (Supplied.under short long kind).get? name = some values →
        tables.entryFault? strict kind (.under short long kind.other) (name, values) = none) ∧
      ∀ switch ∈ tables.required, isSupplied (.under short long) switch = true := by
  simp only [firstFault?, Option.or_eq_none_iff, findSome?_entries_eq_none, Option.map_eq_none_iff,
    List.find?_eq_none, Bool.not_eq_true, Bool.not_eq_false']
  constructor
  · rintro ⟨hshort, hlong, hrequired⟩
    refine ⟨fun kind => ?_, hrequired⟩
    cases kind with
    | short => exact hshort
    | long => exact hlong
  · rintro ⟨hentries, hrequired⟩
    exact ⟨hentries .short, hentries .long, hrequired⟩

end SwitchTables

namespace CommandTree

variable (t : CommandTree) (id : ItemId)

theorem known_switchTables : (t.switchTables id).Known := by
  intro switch hswitch kind name hname
  rw [required_switchTables] at hswitch
  obtain ⟨d, hd, rfl⟩ := List.mem_map.mp hswitch
  have hmem : d ∈ t.reachable id := (List.mem_filter.mp hd).1
  exact declares_iff_find?.mp ⟨d, hmem, hname⟩

theorem firstFault?_switchTables (strict : Bool) (short long : Supplied) :
    (t.switchTables id).firstFault? strict short long = none ↔
      Accepted (t.reachable id) strict (.under short long) := by
  rw [SwitchTables.firstFault?_eq_none]
  simp only [SwitchTables.entryFault?_eq_none, find?_switchTables, required_switchTables,
    SwitchTables.isSupplied_iff]
  generalize t.reachable id = ds
  constructor
  · rintro ⟨hentries, hrequired⟩
    constructor
    · intro hstrict kind name hsupplied
      obtain ⟨values, hget⟩ := NameMap.contains_iff.mp hsupplied
      obtain ⟨switch, hswitch⟩ := (hentries kind name values hget).1 hstrict
      obtain ⟨d, hd, _⟩ := Option.map_eq_some_iff.mp hswitch
      exact ⟨d, hd⟩
    · intro kind name d hsupplied hd
      obtain ⟨values, hget⟩ := NameMap.contains_iff.mp hsupplied
      exact ((hentries kind name values hget).2 d.switch (by rw [hd]; rfl)).1
    · intro kind name values d hget hd
      exact ((hentries kind name values hget).2 d.switch (by rw [hd]; rfl)).2
    · intro d hd hisRequired
      exact hrequired d.switch (List.mem_map_of_mem (List.mem_filter.mpr ⟨hd, hisRequired⟩))
  · intro accepted
    constructor
    · intro kind name values hget
      have hsupplied : (Supplied.under short long kind).contains name = true :=
        NameMap.contains_iff.mpr ⟨values, hget⟩
      constructor
      · intro hstrict
        obtain ⟨d, hd⟩ := accepted.known hstrict kind name hsupplied
        exact ⟨d.switch, by rw [hd]; rfl⟩
      · intro switch hswitch
        obtain ⟨d, hd, rfl⟩ := Option.map_eq_some_iff.mp hswitch
        exact ⟨accepted.single kind name d hsupplied hd, accepted.valued kind name values d hget hd⟩
    · intro switch hswitch
      obtain ⟨d, hd, rfl⟩ := List.mem_map.mp hswitch
      obtain ⟨hmem, hisRequired⟩ := List.mem_filter.mp hd
      exact accepted.complete d hmem hisRequired

theorem verify_eq_firstFault? (short long : Supplied) (options : Options) :
    t.verify id short long options =
      if options.asksForHelp short long then .ok ()
      else match (t.switchTables id).firstFault? options.strict short long with
        | some fault => .error fault
        | none => .ok () := by
  rw [verify, SwitchTables.verify_eq (t.known_switchTables id)]

section
variable {t id} {short long : Supplied} {options : Options}
  (unhelped : options.asksForHelp short long = false)
include unhelped

theorem verify_of_unhelped :
    t.verify id short long options =
      match (t.switchTables id).firstFault? options.strict short long with
      | some fault => .error fault
      | none => .ok () := by
  rw [verify_eq_firstFault?, if_neg (Bool.eq_false_iff.mp unhelped)]

/-- Where the same fault is found first, or none, the answer is the same. -/
theorem verify_congr {short' long' : Supplied} {options' : Options}
    (unhelped' : options'.asksForHelp short' long' = false)
    (h : (t.switchTables id).firstFault? options.strict short long =
      (t.switchTables id).firstFault? options'.strict short' long') :
    t.verify id short long options = t.verify id short' long' options' := by
  rw [verify_of_unhelped unhelped, verify_of_unhelped unhelped', h]

theorem verify_eq_error_iff {fault : Fault} :
    t.verify id short long options = .error fault ↔
      (t.switchTables id).firstFault? options.strict short long = some fault := by
  rw [verify_of_unhelped unhelped]
  cases (t.switchTables id).firstFault? options.strict short long <;> simp

theorem verify_eq_ok_iff_accepted :
    t.verify id short long options = .ok () ↔
      Accepted (t.reachable id) options.strict (.under short long) := by
  rw [verify_of_unhelped unhelped, ← firstFault?_switchTables]
  cases (t.switchTables id).firstFault? options.strict short long <;> simp

/-- What is accepted without asking for help keeps to the rules. -/
theorem accepted_of_verify (h : t.verify id short long options = .ok ()) :
    Accepted (t.reachable id) options.strict (.under short long) :=
  (verify_eq_ok_iff_accepted unhelped).mp h

end

/-- Verification accepts an input if it asks for help or keeps to the rules, and in no other case.
The branches whose common switches count are those on the way from the item up to the root. -/
theorem verify_eq_ok_iff (short long : Supplied) (options : Options) :
    (t.verify id short long options = .ok () ↔
      options.helpBySwitch = true ∧
          (short.contains options.helpShort = true ∨ long.contains options.helpLong = true) ∨
        Accepted (t.reachable id) options.strict (.under short long)) ∧
    (t.Reachable → id < t.size → t.Lineage id (t.ancestry id)) := by
  refine ⟨?_, fun reached hid => reached.wellFormed.lineage_ancestry hid⟩
  rw [← Options.asksForHelp_iff]
  cases hhelp : options.asksForHelp short long with
  | true => simp [verify, hhelp]
  | false => simp [verify_eq_ok_iff_accepted hhelp]

/-- A switch item has no switches of its own here: what counts are a switch of its parent, a common
switch of the root and the id that it asks about. -/
theorem verify_eq_ok_iff_at_switch_item :
    let level : Switch :=
      { short := some "l", long := some "level", parameters := ["name"], named := rfl,
        short_wellFormed := by decide, long_wellFormed := by decide }
    let region : Switch :=
      { short := none, long := some "region", named := rfl,
        short_wellFormed := by decide, long_wellFormed := by decide }
    let dryRun : Switch := .only .long "dry-run" (by decide)
    let t := CommandTree.new.performAll
      [.route "x[dry-run]", .optional 1 level, .commonRequired 0 region]
    let long : Supplied := (NameMap.empty.insert "dry-run" []).insert "region" []
    t.Reachable ∧ 2 < t.size ∧ t.slot? 2 = some .switchItem ∧ t.Lineage 2 [2, 1, 0] ∧
      t.reachable 2 = [⟨level, false⟩, ⟨region, true⟩, ⟨dryRun, false⟩] ∧
      Accepted (t.reachable 2) true (.under .empty long) ∧
      ¬Accepted (t.reachable 2) true (.under .empty (NameMap.empty.insert "dry-run" [])) ∧
      ¬Accepted (t.reachable 2) true (.under (NameMap.empty.insert "l" []) long) := by
  intro level region dryRun t long
  have reached : t.Reachable := Reachable.new.performAll _
  have hsize : 2 < t.size := by decide +kernel
  have habove : t.ancestry 2 = [2, 1, 0] := by decide +kernel
  have hlineage := (t.verify_eq_ok_iff 2 .empty .empty {}).2 reached hsize
  rw [habove] at hlineage
  refine ⟨reached, hsize, by decide +kernel, hlineage, by decide +kernel, ?_, ?_, ?_⟩
  · have hok : t.verify 2 .empty long {} = .ok () := by decide +kernel
    exact ((t.verify_eq_ok_iff 2 _ _ _).1.mp hok).resolve_left (by decide +kernel)
  · intro accepted
    have hok := (t.verify_eq_ok_iff 2 _ _ {}).1.mpr (.inr accepted)
    have hfault : t.verify 2 .empty (NameMap.empty.insert "dry-run" []) {} =
        .error (.absentSwitch "--region") := by decide +kernel
    cases hok.symm.trans hfault
  · intro accepted
    have hok := (t.verify_eq_ok_iff 2 _ _ {}).1.mpr (.inr accepted)
    have hfault : t.verify 2 (NameMap.empty.insert "l" []) long {} =
        .error (.missingValue "-l/--level" "name") := by decide +kernel
    cases hok.symm.trans hfault

end CommandTree

/-! ## Faults -/

end CommandRoutes
