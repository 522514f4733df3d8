import CommandRoutes.Proofs.Verification.MergeOrder

/-!
# Defaults in the merged view

A default is due where its switch is optional, decides about a name and has no
name that something supplied writes. It is not shown for sure: another default
that is due and shares a name with it may be written first, under all names of
its own switch, and also under those that the first switch decides about. This is
all that can keep a default out of the view, and the switches that decide about a
short name come first.
-/
namespace CommandRoutes

namespace SwitchTables
variable {view : Supplied} {switches : List Switch} {s : Switch} {values : List String}

/-- The view holds these values under all names of the switch. -/
def Shows (view : Supplied) (s : Switch) (values : List String) : Prop :=
  ∀ name ∈ s.names, view.get? name = some values

theorem Shows.foldl (h : Shows view s values) (switches : List Switch) :
    Shows (switches.foldl writeDefault view) s values := by
  intro name hname
  have hget := h name hname
  have hcontains : view.contains name = true := by rw [NameMap.contains, hget]; rfl
  rw [get?_foldl_writeDefault_of_contains hcontains, hget]

theorem shows_writeDefault (hfree : Free view s) (hdefault : s.default = some values) :
    Shows (writeDefault view s) s values := by
  intro name hname
  rw [get?_writeDefault_of_free hfree hdefault, if_pos hname]

/-- The default of a free switch is shown, or that of a rival is. -/
theorem shows_or_rival_shows (defaulted : ∀ d ∈ switches, d.default.isSome = true)
    (hs : s ∈ switches) (hfree : Free view s) (hdefault : s.default = some values) :
    Shows (switches.foldl writeDefault view) s values ∨
      ∃ rival ∈ switches, Rivals view s rival ∧ ∃ own, rival.default = some own ∧
        Shows (switches.foldl writeDefault view) rival own := by
  induction switches generalizing view with
  | nil => cases hs
  | cons d rest ih =>
      obtain ⟨hd, hrest⟩ := List.forall_mem_cons.mp defaulted
      rw [List.foldl_cons]
      by_cases heq : s = d
      · subst heq
        exact .inl ((shows_writeDefault hfree hdefault).foldl rest)
      · by_cases hrivals : Rivals view s d
        · obtain ⟨own, hown⟩ := Option.isSome_iff_exists.mp hd
          have hshows := (shows_writeDefault hrivals.2.2.1 hown).foldl rest
          exact .inr ⟨d, List.mem_cons_self, hrivals, own, hown, hshows⟩
        · have hlater := (List.mem_cons.mp hs).resolve_left heq
          have hstill := hfree.writeDefault_of_not_rivals heq hrivals
          obtain h | ⟨rival, hmem, ⟨hne, _, hrival, hmeet⟩, h⟩ := ih hrest hlater hstill
          · exact .inl h
          · have hbefore : Rivals view s rival := ⟨hne, hfree, hrival.of_writeDefault, hmeet⟩
            exact .inr ⟨rival, List.mem_cons_of_mem _ hmem, hbefore, h⟩

/-- A switch stays free where no rival of it is written. -/
theorem Free.foldl (hfree : Free view s) (apart : ∀ d ∈ switches, d ≠ s ∧ ¬Rivals view s d) :
    Free (switches.foldl writeDefault view) s := by
  intro name hname
  apply Bool.eq_false_iff.mpr
  intro hnow
  obtain ⟨d, hd, hdfree, hdname, _⟩ := exists_of_contains_foldl hnow (hfree name hname)
  obtain ⟨hne, hrivals⟩ := apart d hd
  exact hrivals ⟨hne.symm, hfree, hdfree, name, hname, hdname⟩

/-- A switch with a default can come first among the entries. -/
theorem exists_withDefaults_eq_cons {entries : List (String × Switch)} {key : String}
    (hmem : (key, s) ∈ entries) (hdefault : s.default = some values) :
    ∃ entries' rest, entries'.Perm entries ∧ withDefaults entries' = s :: rest := by
  refine ⟨(key, s) :: entries.erase (key, s), withDefaults (entries.erase (key, s)),
    (List.perm_cons_erase hmem).symm, ?_⟩
  simp [withDefaults, hdefault]

end SwitchTables

open SwitchTables (Shows Free Rivals)

namespace CommandTree
variable {t : CommandTree} {id : ItemId} {short long : Supplied} {s : Switch}
  {values : List String}

/-- No name that is supplied, and no name of a switch that decides about one, is a name of the
switch. -/
def Untouched (t : CommandTree) (id : ItemId) (short long : Supplied) (s : Switch) : Prop :=
  ∀ kind name, (Supplied.under short long kind).contains name = true →
    name ∉ s.names ∧ ∀ d, Declaration.nearest? (t.reachable id) kind name = some d →
      ∀ n ∈ d.switch.names, n ∉ s.names

/-- The optional switch decides about a name of this kind. -/
def DecidesOptionally (t : CommandTree) (id : ItemId) (kind : NameKind) (s : Switch) : Prop :=
  ∃ name, Declaration.nearest? (t.reachable id) kind name = some ⟨s, false⟩

/-- By the nearest declarations alone the view has to show the default of this switch. -/
structure Due (t : CommandTree) (id : ItemId) (short long : Supplied) (s : Switch)
    (values : List String) : Prop where
  decides : ∃ kind, t.DecidesOptionally id kind s
  default_eq : s.default = some values
  untouched : t.Untouched id short long s

theorem due_of_nothing_supplied {kind : NameKind} (decides : t.DecidesOptionally id kind s)
    (hdefault : s.default = some values) : t.Due id .empty .empty s values := by
  refine ⟨⟨kind, decides⟩, hdefault, ?_⟩
  intro kind name hname
  cases kind <;> cases hname

/-- Another default is due, and its switch shares a name with this one. -/
def DueRival (t : CommandTree) (id : ItemId) (short long : Supplied) (s rival : Switch)
    (own : List String) : Prop :=
  t.Due id short long rival own ∧ rival ≠ s ∧ ∃ name ∈ s.names, name ∈ rival.names

theorem exists_mem_entries_iff {kind : NameKind} :
    (∃ key, (key, s) ∈ ((t.switchTables id).names kind).optional.entries) ↔
      t.DecidesOptionally id kind s :=
  exists_congr fun key => NameMap.mem_entries.trans (t.optional_switchTables id kind key s)

/-- What is supplied under a name writes the names of the switch that decides about it, or else
this name. -/
theorem exists_mem_written_iff {kind : NameKind} {name n : String} {supplied : List String} :
    (∃ e ∈ (t.switchTables id).written kind (name, supplied), e.1 = n) ↔
      n = name ∨ ∃ d, Declaration.nearest? (t.reachable id) kind name = some d ∧
        n ∈ d.switch.names := by
  cases hd : Declaration.nearest? (t.reachable id) kind name with
  | none =>
      have hfind : (t.switchTables id).find? kind name = none := by
        rw [find?_switchTables, hd, Option.map_none]
      simp [SwitchTables.written, hfind, eq_comm]
  | some d =>
      have hname : name ∈ d.switch.names :=
        Switch.mem_names.mpr ⟨kind, Declaration.nameOf_of_nearest? hd⟩
      constructor
      · rintro ⟨e, he, rfl⟩
        exact .inr ⟨d, rfl, ((mem_written hd).mp he).1⟩
      · intro h
        have hn : n ∈ d.switch.names := by
          obtain rfl | ⟨_, hsame, hn⟩ := h
          · exact hname
          · cases hsame
            exact hn
        exact ⟨(n, supplied), (mem_written hd).mpr ⟨hn, rfl⟩, rfl⟩

section
variable {shortEntries longEntries : List (String × List String)}
  (hshort : shortEntries.Perm short.entries) (hlong : longEntries.Perm long.entries)
include hshort hlong

/-- Nothing supplied touches a switch just if it is free where the supplied switches stand. -/
theorem free_writes_iff :
    Free (.ofList ((t.switchTables id).writes shortEntries longEntries)) s ↔
      t.Untouched id short long s := by
  have hcontains : ∀ n, (NameMap.ofList
      ((t.switchTables id).writes shortEntries longEntries)).contains n = true ↔
        ∃ kind name, (Supplied.under short long kind).contains name = true ∧
          (n = name ∨ ∃ d, Declaration.nearest? (t.reachable id) kind name = some d ∧
            n ∈ d.switch.names) := by
    intro n
    rw [NameMap.ofList, NameMap.contains_insertAll, or_iff_right (by simp [NameMap.contains])]
    constructor
    · rintro ⟨e, he, heq⟩
      obtain ⟨kind, name, supplied, hget, hwritten⟩ := (SwitchTables.mem_writes hshort hlong).mp he
      exact ⟨kind, name, NameMap.contains_iff.mpr ⟨_, hget⟩,
        exists_mem_written_iff.mp ⟨e, hwritten, heq⟩⟩
    · rintro ⟨kind, name, hname, hn⟩
      obtain ⟨supplied, hget⟩ := NameMap.contains_iff.mp hname
      obtain ⟨e, hwritten, heq⟩ := exists_mem_written_iff.mpr hn
      exact ⟨e, (SwitchTables.mem_writes hshort hlong).mpr ⟨kind, name, supplied, hget, hwritten⟩,
        heq⟩
  constructor
  · intro hfree kind name hname
    have habsent : ∀ n, (n = name ∨ ∃ d, Declaration.nearest? (t.reachable id) kind name = some d ∧
        n ∈ d.switch.names) → n ∉ s.names := by
      intro n hn hmem
      exact Bool.eq_false_iff.mp (hfree n hmem) ((hcontains n).mpr ⟨kind, name, hname, hn⟩)
    exact ⟨habsent name (.inl rfl), fun d hd n hn => habsent n (.inr ⟨d, hd, hn⟩)⟩
  · intro untouched n hmem
    apply Bool.eq_false_iff.mpr
    intro hthere
    obtain ⟨kind, name, hname, rfl | ⟨d, hd, hn⟩⟩ := (hcontains n).mp hthere
    · exact (untouched kind n hname).1 hmem
    · exact (untouched kind name hname).2 d hd n hn hmem

end

section
variable {base : Supplied} (hbase : ∀ s, Free base s ↔ t.Untouched id short long s)
include hbase

theorem Due.free (due : t.Due id short long s values) : Free base s :=
  (hbase s).mpr due.untouched

theorem dueRival_of_rivals {rival : Switch} {own : List String} (h : Rivals base s rival)
    (hown : rival.default = some own) (decides : ∃ kind, t.DecidesOptionally id kind rival) :
    t.DueRival id short long s rival own :=
  ⟨⟨decides, hown, (hbase rival).mp h.2.2.1⟩, h.1.symm, h.2.2.2⟩

end

theorem mem_withDefaults_iff (kind : NameKind) {entries : List (String × Switch)}
    (perm : entries.Perm ((t.switchTables id).names kind).optional.entries) :
    s ∈ SwitchTables.withDefaults entries ↔
      s.default.isSome = true ∧ t.DecidesOptionally id kind s := by
  rw [SwitchTables.mem_withDefaults, ← exists_mem_entries_iff]
  simp only [perm.mem_iff]

/-- In every order a default that is due is shown, or one of its rivals is. -/
theorem Due.shows_or_rival_shows (due : t.Due id short long s values) {view : Supplied}
    (merged : (t.switchTables id).Merged short long view) :
    Shows view s values ∨
      ∃ rival own, t.DueRival id short long s rival own ∧ Shows view rival own := by
  cases merged with
  | @inOrder shortEntries longEntries shortOptional longOptional hshort hlong hshorts hlongs =>
      have hbase : ∀ s, Free (.ofList ((t.switchTables id).writes shortEntries longEntries)) s ↔
          t.Untouched id short long s := fun s => free_writes_iff hshort hlong
      have hmem : ∀ d, d ∈ SwitchTables.withDefaults shortOptional ++
          SwitchTables.withDefaults longOptional ↔
            d.default.isSome = true ∧ ∃ kind, t.DecidesOptionally id kind d := by
        intro d
        rw [List.mem_append, mem_withDefaults_iff .short hshorts,
          mem_withDefaults_iff .long hlongs, ← and_or_left]
        apply and_congr_right
        intro _
        constructor
        · rintro (h | h)
          · exact ⟨.short, h⟩
          · exact ⟨.long, h⟩
        · rintro ⟨kind, h⟩
          cases kind with
          | short => exact .inl h
          | long => exact .inr h
      have hdefault : s.default.isSome = true := by rw [due.default_eq]; rfl
      obtain h | ⟨rival, hrival, hrivals, own, hown, h⟩ :=
        SwitchTables.shows_or_rival_shows (fun d hd => ((hmem d).mp hd).1)
          ((hmem s).mpr ⟨hdefault, due.decides⟩) (due.free hbase) due.default_eq
      · exact .inl h
      · exact .inr ⟨rival, own, dueRival_of_rivals hbase hrivals hown ((hmem rival).mp hrival).2, h⟩

/-- A default that is due is shown where its switch comes first, and it comes before all of its
rivals in some order unless one of them alone decides about a short name. -/
theorem Due.exists_shows (due : t.Due id short long s values)
    (first : t.DecidesOptionally id .short s ∨
      ∀ rival own, t.DueRival id short long s rival own → ¬t.DecidesOptionally id .short rival) :
    ∃ view, (t.switchTables id).Merged short long view ∧ Shows view s values := by
  have hbase : ∀ s, Free (.ofList ((t.switchTables id).writes short.entries long.entries)) s ↔
      t.Untouched id short long s := fun s => free_writes_iff (.refl _) (.refl _)
  have hfree := due.free hbase
  by_cases hshort : t.DecidesOptionally id .short s
  · obtain ⟨key, hmem⟩ := exists_mem_entries_iff.mpr hshort
    obtain ⟨entries, rest, perm, hcons⟩ :=
      SwitchTables.exists_withDefaults_eq_cons hmem due.default_eq
    refine ⟨_, .inOrder (.refl _) (.refl _) perm (.refl _), ?_⟩
    rw [SwitchTables.mergeInOrder_eq, hcons, List.foldl_cons]
    exact ((SwitchTables.shows_writeDefault hfree due.default_eq).foldl rest).foldl _
  · have hlong : t.DecidesOptionally id .long s := by
      obtain ⟨kind, hkind⟩ := due.decides
      cases kind with
      | short => exact absurd hkind hshort
      | long => exact hkind
    obtain ⟨key, hmem⟩ := exists_mem_entries_iff.mpr hlong
    obtain ⟨entries, rest, perm, hcons⟩ :=
      SwitchTables.exists_withDefaults_eq_cons hmem due.default_eq
    refine ⟨_, .inOrder (.refl _) (.refl _) (.refl _) perm, ?_⟩
    rw [SwitchTables.mergeInOrder_eq, hcons, List.foldl_cons]
    -- nothing that stands under a short name is in the way
    have apart : ∀ d ∈ SwitchTables.withDefaults (t.switchTables id).short.optional.entries,
        d ≠ s ∧ ¬Rivals (.ofList ((t.switchTables id).writes short.entries long.entries)) s d := by
      intro d hd
      obtain ⟨hdefault, hdecides⟩ := (mem_withDefaults_iff .short (.refl _)).mp hd
      obtain ⟨own, hown⟩ := Option.isSome_iff_exists.mp hdefault
      constructor
      · intro heq
        exact hshort (heq ▸ hdecides)
      · intro hrivals
        have hrival := dueRival_of_rivals hbase hrivals hown ⟨.short, hdecides⟩
        exact first.resolve_left hshort d own hrival hdecides
    exact (SwitchTables.shows_writeDefault (hfree.foldl apart) due.default_eq).foldl rest

/-- A default that is due is shown under all names of its switch, or a rival that is due is shown
under all names of its own. It is shown in some order if the switch decides about a short name or if
no rival does. -/
theorem mergedView_default_or_rival (due : t.Due id short long s values) :
    (∀ view, (t.switchTables id).Merged short long view → Shows view s values ∨
      ∃ rival own, t.DueRival id short long s rival own ∧ Shows view rival own) ∧
    (t.DecidesOptionally id .short s ∨ (∀ rival own, t.DueRival id short long s rival own →
        ¬t.DecidesOptionally id .short rival) →
      ∃ view, (t.switchTables id).Merged short long view ∧ Shows view s values) :=
  ⟨fun _ merged => due.shows_or_rival_shows merged, due.exists_shows⟩

/-- Two switches share a long name, and the nearer one is shown in some order, though not in the
order of the names. -/
theorem mergedView_default_or_rival_shared_name :
    let near : Switch :=
      { short := some "n", long := some "out", default := some ["near"], named := rfl,
        short_wellFormed := by decide, long_wellFormed := by decide }
    let far : Switch :=
      { short := some "b", long := some "out", default := some ["far"], named := rfl,
        short_wellFormed := by decide, long_wellFormed := by decide }
    let t := (((CommandTree.new.perform (.route "x")).tree.perform (.optional 1 near)).tree.perform
      (.commonOptional 0 far)).tree
    t.Due 1 .empty .empty near ["near"] ∧
      (t.mergedView 1 .empty .empty).get? "out" = some ["far"] ∧
      ∃ view, (t.switchTables 1).Merged .empty .empty view ∧ Shows view near ["near"] := by
  intro near far t
  have hdecides : t.DecidesOptionally 1 .short near := ⟨"n", by decide +kernel⟩
  have due : t.Due 1 .empty .empty near ["near"] := due_of_nothing_supplied hdecides rfl
  exact ⟨due, by decide +kernel, (mergedView_default_or_rival due).2 (.inl hdecides)⟩

/-- The nearest switch of the name has a default and nothing is supplied, but the name shows the
default of a farther switch in every order, for that one stands under a short name too. -/
theorem farther_default_shown :
    let near : Switch :=
      { short := none, long := some "out", default := some ["near"], named := rfl,
        short_wellFormed := by decide, long_wellFormed := by decide }
    let far : Switch :=
      { short := some "b", long := some "out", default := some ["far"], named := rfl,
        short_wellFormed := by decide, long_wellFormed := by decide }
    let t := (((CommandTree.new.perform (.route "x")).tree.perform (.optional 1 near)).tree.perform
      (.commonOptional 0 far)).tree
    t.Reachable ∧ t.Due 1 .empty .empty near ["near"] ∧
      Declaration.nearest? (t.reachable 1) .long "out" = some ⟨near, false⟩ ∧
      (t.mergedView 1 .empty .empty).get? "out" = some ["far"] ∧
      ∀ view, (t.switchTables 1).Merged .empty .empty view → view.get? "out" = some ["far"] := by
  intro near far t
  have reached : t.Reachable := .perform _ (.perform _ (.perform _ .new))
  have hnearest : Declaration.nearest? (t.reachable 1) .long "out" = some ⟨near, false⟩ := by
    decide +kernel
  have due := due_of_nothing_supplied ⟨"out", hnearest⟩ rfl
  refine ⟨reached, due, hnearest, by decide +kernel, ?_⟩
  intro view merged
  cases merged with
  | inOrder hshort hlong hshorts hlongs =>
      have hshortTable : (t.switchTables 1).short.optional.entries = [("b", far)] := by
        decide +kernel
      have hlongTable : (t.switchTables 1).long.optional.entries = [("out", near)] := by
        decide +kernel
      rw [hshortTable] at hshorts
      rw [hlongTable] at hlongs
      rw [List.perm_nil.mp hshort, List.perm_nil.mp hlong, List.perm_singleton.mp hshorts,
        List.perm_singleton.mp hlongs]
      decide +kernel

end CommandTree
end CommandRoutes
