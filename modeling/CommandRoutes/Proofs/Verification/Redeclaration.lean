import CommandRoutes.Proofs.Verification.Asking

/-!
# Names that a set declares more than once

A set of switches answers a name with the switch that was declared last under
it. Verification goes by the tables instead, and these keep what was entered
first: of the switches of one set that share a name, the one declared first is
applied to what is supplied under this name. The two are the same where the
first and the last declaration ask for the same parameters and have the same
other name, and only there.
-/
namespace CommandRoutes

/-! ## Sets as they are filled -/

namespace Switches

/-- The switch that a name of this kind stands for in the set. -/
def withName? (set : Switches) : NameKind → String → Option Switch
  | .short => set.withShort?
  | .long => set.withLong?

variable (set : Switches) (kind : NameKind) (name : String)

theorem withName?_eq_find? :
    set.withName? kind name = set.toList.reverse.find? fun s => s.nameOf kind = some name := by
  cases kind with
  | short => exact congrArg (List.find? · _) (funext fun _ => beq_eq_decide ..)
  | long => exact congrArg (List.find? · _) (funext fun _ => beq_eq_decide ..)

theorem toList_foldl_insert (switches : List Switch) :
    (switches.foldl insert set).toList = set.toList ++ switches := by
  induction switches generalizing set with
  | nil => simp
  | cons s rest ih => rw [List.foldl_cons, ih, insert, List.append_assoc, List.singleton_append]

end Switches

/-- Among the switches this is the first one with the name. -/
def FirstNamed (switches : List Switch) (kind : NameKind) (name : String) (s : Switch) : Prop :=
  s.nameOf kind = some name ∧ ∃ earlier later, switches = earlier ++ s :: later ∧
    ∀ e ∈ earlier, e.nameOf kind ≠ some name

/-- Among the switches this is the last one with the name. -/
def LastNamed (switches : List Switch) (kind : NameKind) (name : String) (s : Switch) : Prop :=
  s.nameOf kind = some name ∧ ∃ earlier later, switches = earlier ++ s :: later ∧
    ∀ l ∈ later, l.nameOf kind ≠ some name

section
variable {switches : List Switch} {kind : NameKind} {name : String} {s : Switch}

theorem firstNamed_iff :
    FirstNamed switches kind name s ↔
      switches.find? (fun s => s.nameOf kind = some name) = some s := by
  simp [FirstNamed, List.find?_eq_some_iff_append]

theorem lastNamed_iff_reverse :
    LastNamed switches kind name s ↔ FirstNamed switches.reverse kind name s := by
  unfold LastNamed FirstNamed
  refine and_congr_right fun _ => ⟨?_, ?_⟩
  · rintro ⟨earlier, later, rfl, hlater⟩
    exact ⟨later.reverse, earlier.reverse, by simp, by simpa using hlater⟩
  · rintro ⟨later, earlier, hreverse, hlater⟩
    refine ⟨earlier.reverse, later.reverse, ?_, by simpa using hlater⟩
    rw [← List.reverse_reverse switches, hreverse]
    simp

/-- A set answers with what was declared last. -/
theorem withName?_eq_some_iff :
    (switches.foldl Switches.insert .empty).withName? kind name = some s ↔
      LastNamed switches kind name s := by
  rw [Switches.withName?_eq_find?, Switches.toList_foldl_insert, lastNamed_iff_reverse,
    firstNamed_iff]
  rfl

theorem exists_firstNamed (h : ∃ s ∈ switches, s.nameOf kind = some name) :
    ∃ first, FirstNamed switches kind name first := by
  simp only [firstNamed_iff, ← Option.isSome_iff_exists, List.find?_isSome, decide_eq_true_eq]
  exact h

theorem exists_lastNamed (h : ∃ s ∈ switches, s.nameOf kind = some name) :
    ∃ last, LastNamed switches kind name last := by
  simp only [lastNamed_iff_reverse]
  exact exists_firstNamed (by simpa using h)

end

/-- The switches that an item has for itself and that come first under the name: its required ones,
or its optional ones where no required one has the name. -/
inductive PathItem.OwnSet (item : PathItem) (kind : NameKind) (name : String) : Switches → Prop
  | required : OwnSet item kind name item.required
  | optional : item.required.withName? kind name = none → OwnSet item kind name item.optional

/-! ## Using a switch -/

namespace Switch
variable {kind : NameKind} {a b : Switch}

/-- What is wrong with a use of the switch under its name. -/
def useFault? (s : Switch) (kind : NameKind) (name : String) (others : Supplied)
    (values : List String) : Option Fault :=
  match (s.nameOf kind.other).filter others.contains with
  | some otherName => some (kind.bothSupplied name otherName)
  | none => SwitchTables.valueFault? s values

/-- The two ask for the same parameters and have the same name of the other kind. -/
def UsedLike (kind : NameKind) (a b : Switch) : Prop :=
  a.parameters = b.parameters ∧ a.nameOf kind.other = b.nameOf kind.other

theorem UsedLike.spelling_eq {name : String} (h : UsedLike kind a b)
    (ha : a.nameOf kind = some name) (hb : b.nameOf kind = some name) :
    a.spelling = b.spelling := by
  have hsame : a.nameOf kind = b.nameOf kind := ha.trans hb.symm
  have hnames : a.short = b.short ∧ a.long = b.long := by
    cases kind with
    | short => exact ⟨hsame, h.2⟩
    | long => exact ⟨h.2, hsame⟩
  rw [spelling, spelling, hnames.1, hnames.2]

theorem valueFault?_eq_some_iff {s : Switch} {values : List String} {fault : Fault} :
    SwitchTables.valueFault? s values = some fault ↔
      ∃ parameter, s.parameters[values.length]? = some parameter ∧
        .missingValue s.spelling parameter = fault := by
  rw [SwitchTables.valueFault?, Option.map_eq_some_iff]

section
variable (s : Switch) (kind : NameKind) (name : String) (values : List String)

/-- Where nothing stands under the other name, only values can be missing. -/
theorem useFault?_empty :
    s.useFault? kind name .empty values = SwitchTables.valueFault? s values := by
  have hfilter : (s.nameOf kind.other).filter (NameMap.contains (.empty : Supplied)) = none := by
    rw [Option.filter_eq_none_iff]
    intro otherName _
    simp [NameMap.contains]
  rw [useFault?, hfilter]

/-- A use is refused for another name that is supplied just if the switch has it. -/
theorem useFault?_insert_iff (otherName : String) :
    s.useFault? kind name (NameMap.empty.insert otherName []) values =
      some (kind.bothSupplied name otherName) ↔ s.nameOf kind.other = some otherName := by
  unfold useFault?
  constructor
  · intro h
    cases hfilter : (s.nameOf kind.other).filter
        (NameMap.contains (NameMap.empty.insert otherName [] : Supplied)) with
    | some found =>
        rw [hfilter] at h
        have hsame : found = otherName := by cases kind <;> simpa [NameKind.bothSupplied] using h
        exact hsame ▸ (Option.filter_eq_some_iff.mp hfilter).1
    | none =>
        rw [hfilter] at h
        obtain ⟨_, _, hfault⟩ := valueFault?_eq_some_iff.mp h
        cases kind <;> cases hfault
  · intro h
    simp [h, Option.filter, NameMap.contains]

end

/-- Switches of which every use is judged alike are used alike. -/
theorem usedLike_of_useFault?_eq {name : String}
    (h : ∀ others values,
      a.useFault? kind name others values = b.useFault? kind name others values) :
    a.UsedLike kind b := by
  constructor
  · refine List.ext_getElem? fun i => ?_
    -- with `i` values the next parameter is reported, if there is one
    have hvalues := h .empty (List.replicate i "")
    rw [useFault?_empty, useFault?_empty, SwitchTables.valueFault?, SwitchTables.valueFault?,
      List.length_replicate] at hvalues
    cases ha : a.parameters[i]? <;> cases hb : b.parameters[i]? <;> simp_all
  · refine Option.ext fun otherName => ?_
    rw [← useFault?_insert_iff a kind name [], ← useFault?_insert_iff b kind name [], h]

theorem UsedLike.useFault?_eq {name : String} (h : UsedLike kind a b)
    (ha : a.nameOf kind = some name) (hb : b.nameOf kind = some name) (others : Supplied)
    (values : List String) :
    a.useFault? kind name others values = b.useFault? kind name others values := by
  rw [useFault?, useFault?, SwitchTables.valueFault?, SwitchTables.valueFault?, h.1, h.2,
    h.spelling_eq ha hb]

end Switch

/-- A pass that comes to a name reports what is wrong with this use of the switch that is found, or
goes on. -/
theorem SwitchTables.check_cons_of_find? {tables : SwitchTables} {kind : NameKind} {name : String}
    {s : Switch} (h : tables.find? kind name = some s) (strict : Bool) (others : Supplied)
    (values : List String) (rest : List (String × List String)) (missing : List Bool) :
    tables.check strict kind others ((name, values) :: rest) missing =
      match s.useFault? kind name others values with
      | some fault => .error fault
      | none => tables.check strict kind others rest (tables.satisfy kind name missing) := by
  rw [check, h, Switch.useFault?]
  dsimp only
  cases (s.nameOf kind.other).filter others.contains with
  | some otherName => rfl
  | none => cases valueFault? s values <;> rfl

namespace CommandTree
variable {t : CommandTree} {id : ItemId} {kind : NameKind} {name : String}

/-! ## The switch that is applied -/

/-- Verification applies this switch to what is supplied under the name: a pass that comes to the
name reports what is wrong with this use of the switch, or else goes on. -/
def Applies (t : CommandTree) (id : ItemId) (kind : NameKind) (name : String) (s : Switch) : Prop :=
  ∀ strict others values rest missing,
    (t.switchTables id).check strict kind others ((name, values) :: rest) missing =
      match s.useFault? kind name others values with
      | some fault => .error fault
      | none => (t.switchTables id).check strict kind others rest
          ((t.switchTables id).satisfy kind name missing)

/-- Of the switches with a name those apply that are used like the one found under it. -/
theorem applies_iff {s found : Switch} (hfind : (t.switchTables id).find? kind name = some found)
    (hfound : found.nameOf kind = some name) (hs : s.nameOf kind = some name) :
    t.Applies id kind name s ↔ s.UsedLike kind found := by
  have hpass := SwitchTables.check_cons_of_find? hfind
  constructor
  · intro applies
    have hsame : ∀ others values,
        s.useFault? kind name others values = found.useFault? kind name others values := by
      intro others values
      have hend := (applies false others values [] []).symm.trans (hpass false others values [] [])
      cases h : s.useFault? kind name others values <;>
        cases h' : found.useFault? kind name others values <;> simp_all [SwitchTables.check]
    exact Switch.usedLike_of_useFault?_eq hsame
  · intro alike strict others values rest missing
    rw [hpass, alike.useFault?_eq hs hfound]

/-- Of the switches that an item has for itself the first one with a name is found under it. -/
theorem find?_of_ownSet {item : PathItem} {set : Switches} {first : Switch}
    (hitem : t.get? id = some item) (own : item.OwnSet kind name set)
    (hfirst : FirstNamed set.toList kind name first) :
    (t.switchTables id).find? kind name = some first := by
  rw [firstNamed_iff] at hfirst
  have hdeclared : t.ownDeclarations id = Declaration.ofSets item.required item.optional := by
    rw [ownDeclarations, hitem]
    rfl
  have hnearest : ∃ isRequired, Declaration.nearest? (t.reachable id) kind name =
      some ⟨first, isRequired⟩ := by
    simp only [Declaration.nearest?, reachable, declared, hdeclared, Declaration.ofSets,
      List.append_assoc, List.find?_append, List.find?_map, Function.comp_def]
    cases own with
    | required => exact ⟨true, by rw [hfirst]; rfl⟩
    | optional hfree =>
        have hnone : item.required.toList.find? (fun s => s.nameOf kind = some name) = none := by
          simpa [Switches.withName?_eq_find?] using hfree
        exact ⟨false, by rw [hnone, hfirst]; rfl⟩
  obtain ⟨isRequired, hnearest⟩ := hnearest
  rw [find?_switchTables, hnearest]
  rfl

/-- A name that is supplied alone and lacks a value is reported with the switch that is found. -/
theorem verify_alone_of_find? {s : Switch} {values : List String} {parameter : String}
    {options : Options} (hfind : (t.switchTables id).find? kind name = some s)
    (hmissing : s.parameters[values.length]? = some parameter)
    (unhelped : options.asksForHelp (.alone kind name values .short)
      (.alone kind name values .long) = false) :
    t.verify id (.alone kind name values .short) (.alone kind name values .long) options =
      .error (.missingValue s.spelling parameter) := by
  have huse := (s.useFault?_empty kind name values).trans
    (Switch.valueFault?_eq_some_iff.mpr ⟨parameter, hmissing, rfl⟩)
  rw [verify_eq_error_iff unhelped]
  refine SwitchTables.firstFault?_alone ?_
  rw [SwitchTables.entryFault?, hfind]
  exact huse

/-- Whatever switches a set of an item is filled with, the set answers a name with the switch that
was declared last under it, and verification applies the one that was declared first. The switch
that the set answers with is applied just if it is used like the first one. -/
theorem applies_first_declared {switches : List Switch} {item : PathItem}
    (hitem : t.get? id = some item)
    (own : item.OwnSet kind name (switches.foldl Switches.insert .empty))
    (declared : ∃ s ∈ switches, s.nameOf kind = some name) :
    ∃ first last, FirstNamed switches kind name first ∧ LastNamed switches kind name last ∧
      (switches.foldl Switches.insert .empty).withName? kind name = some last ∧
      t.Applies id kind name first ∧
      (t.Applies id kind name last ↔ last.UsedLike kind first) ∧
      ∀ values parameter options, first.parameters[values.length]? = some parameter →
        options.asksForHelp (.alone kind name values .short)
          (.alone kind name values .long) = false →
        t.verify id (.alone kind name values .short) (.alone kind name values .long) options =
          .error (.missingValue first.spelling parameter) := by
  obtain ⟨first, hfirst⟩ := exists_firstNamed declared
  obtain ⟨last, hlast⟩ := exists_lastNamed declared
  have hfind : (t.switchTables id).find? kind name = some first := by
    apply find?_of_ownSet hitem own
    rw [Switches.toList_foldl_insert]
    exact hfirst
  refine ⟨first, last, hfirst, hlast, withName?_eq_some_iff.mpr hlast, ?_, ?_, ?_⟩
  · exact (applies_iff hfind hfirst.1 hfirst.1).mpr ⟨rfl, rfl⟩
  · exact applies_iff hfind hfirst.1 hlast.1
  · intro values parameter options hmissing unhelped
    exact verify_alone_of_find? hfind hmissing unhelped

/-- The long name goes by the second of three switches, each of which shares a name with the
next. -/
theorem applies_first_declared_three :
    let bare : Switch :=
      { short := some "v", long := none, named := rfl,
        short_wellFormed := by decide, long_wellFormed := by decide }
    let levelled : Switch :=
      { short := some "v", long := some "verbose", parameters := ["level"], named := rfl,
        short_wellFormed := by decide, long_wellFormed := by decide }
    let plain : Switch :=
      { short := none, long := some "verbose", named := rfl,
        short_wellFormed := by decide, long_wellFormed := by decide }
    let t := (((CommandTree.new.perform (.required 0 bare)).tree.perform
      (.required 0 levelled)).tree.perform (.required 0 plain)).tree
    t.Reachable ∧ t.Applies 0 .long "verbose" levelled ∧ ¬t.Applies 0 .long "verbose" plain ∧
      t.verify 0 (.alone .long "verbose" [] .short) (.alone .long "verbose" [] .long) {} =
        .error (.missingValue "-v/--verbose" "level") := by
  intro bare levelled plain t
  have reached : t.Reachable := .perform _ (.perform _ (.perform _ .new))
  let item : PathItem :=
    { name := "", parent := none, kind := .root {},
      required := [bare, levelled, plain].foldl Switches.insert .empty }
  have hitem : t.get? 0 = some item := by decide +kernel
  have own : item.OwnSet .long "verbose" ([bare, levelled, plain].foldl Switches.insert .empty) :=
    .required
  obtain ⟨first, last, hfirst, hlast, _, applies, hiff, halone⟩ :=
    applies_first_declared hitem own ⟨plain, by simp, rfl⟩
  obtain rfl : levelled = first := Option.some.inj (firstNamed_iff.mp hfirst)
  obtain rfl : plain = last :=
    Option.some.inj (firstNamed_iff.mp (lastNamed_iff_reverse.mp hlast))
  refine ⟨reached, applies, fun hplain => ?_, halone [] "level" {} rfl (by decide +kernel)⟩
  have alike := hiff.mp hplain
  exact absurd alike.1 (by decide)

/-- The switch declared last is the one that the set answers with, and it asks for a value;
verification goes by the one declared before it and misses none. -/
theorem redeclared_switch_not_applied :
    let bare : Switch :=
      { short := none, long := some "out", named := rfl,
        short_wellFormed := by decide, long_wellFormed := by decide }
    let filed : Switch :=
      { short := none, long := some "out", parameters := ["file"], named := rfl,
        short_wellFormed := by decide, long_wellFormed := by decide }
    let t := ((CommandTree.new.perform (.required 0 bare)).tree.perform (.required 0 filed)).tree
    t.Reachable ∧
      (∃ item, t.get? 0 = some item ∧ item.required.withName? .long "out" = some filed) ∧
      filed.useFault? .long "out" .empty [] = some (.missingValue "--out" "file") ∧
      t.verify 0 .empty (NameMap.empty.insert "out" []) {} = .ok () ∧
      ¬t.Applies 0 .long "out" filed := by
  intro bare filed t
  have reached : t.Reachable := .perform _ (.perform _ .new)
  refine ⟨reached, ⟨_, rfl, by decide +kernel⟩, by decide +kernel, by decide +kernel, ?_⟩
  intro applies
  exact absurd (applies false .empty [] [] []) (by decide +kernel)

end CommandTree
end CommandRoutes
