import CommandRoutes.Proofs.Verification.Merging

/-!
# Merged views and the order of merging

Where no name is written with two values, what is supplied makes the same view
in every order. The defaults need not. Of two switches that have a name in
common and none in the view, only the first is written, and the other name of
the second is then missing, even where both have the same default. Two such
switches in one collection are all that the view depends on: without them it is
the same in every order, and with them there are two orders that differ.
-/
namespace CommandRoutes

theorem NameMap.get?_ofList_eq_some_iff {α : Type} {entries : List (String × α)}
    (alike : ∀ e ∈ entries, ∀ e' ∈ entries, e.1 = e'.1 → e.2 = e'.2) {name : String} {value : α} :
    (ofList entries).get? name = some value ↔ (name, value) ∈ entries := by
  constructor
  · intro h
    by_cases hname : ∀ e ∈ entries, e.1 ≠ name
    · rw [ofList, get?_insertAll_of_not_mem hname, get?_empty] at h
      cases h
    · push Not at hname
      obtain ⟨⟨n, v⟩, hmem, rfl⟩ := hname
      rw [ofList, get?_insertAll_of_mem hmem fun w hw => alike _ hw _ hmem rfl] at h
      cases h
      exact hmem
  · exact fun hmem => get?_insertAll_of_mem hmem fun w hw => alike _ hw _ hmem rfl

/-- Entries that write no name with two values make the same map in every order. -/
theorem NameMap.ofList_congr {α : Type} {entries entries' : List (String × α)}
    (alike : ∀ e ∈ entries, ∀ e' ∈ entries, e.1 = e'.1 → e.2 = e'.2)
    (same : ∀ e, e ∈ entries' ↔ e ∈ entries) : ofList entries' = ofList entries := by
  refine NameMap.ext_get? fun name => Option.ext fun value => ?_
  rw [get?_ofList_eq_some_iff fun e he e' he' => alike e ((same e).mp he) e' ((same e').mp he'),
    get?_ofList_eq_some_iff alike, same]

namespace SwitchTables
variable {view : Supplied} {switches : List Switch}

/-- Two switches of which a view takes the default of only one: both are free, and they have a
name in common. -/
def Rivals (view : Supplied) (a b : Switch) : Prop :=
  a ≠ b ∧ Free view a ∧ Free view b ∧ ∃ name ∈ a.names, name ∈ b.names

instance (view : Supplied) (a b : Switch) : Decidable (Rivals view a b) :=
  inferInstanceAs (Decidable (_ ∧ _ ∧ _ ∧ ∃ name ∈ a.names, name ∈ b.names))

/-- No two of the switches are rivals. -/
def Peaceful (view : Supplied) (switches : List Switch) : Prop :=
  ∀ a ∈ switches, ∀ b ∈ switches, ¬Rivals view a b

instance (view : Supplied) (switches : List Switch) : Decidable (Peaceful view switches) :=
  inferInstanceAs (Decidable (∀ a ∈ switches, ∀ b ∈ switches, ¬Rivals view a b))

theorem contains_writeDefault {switch : Switch} {name : String} :
    (writeDefault view switch).contains name = true ↔
      view.contains name = true ∨
        (switch.default.isSome = true ∧ Free view switch ∧ name ∈ switch.names) := by
  by_cases hfree : Free view switch
  · cases hdefault : switch.default with
    | none => simp [writeDefault, hdefault]
    | some values =>
        rw [NameMap.contains, get?_writeDefault_of_free hfree hdefault]
        split_ifs with hname
        · simp [hfree, hname]
        · simp [NameMap.contains, hname]
  · simp [writeDefault_of_not_free hfree, hfree]

theorem Free.of_writeDefault {switch other : Switch} (h : Free (writeDefault view switch) other) :
    Free view other := by
  intro name hname
  have hlater := h name hname
  rw [Bool.eq_false_iff] at hlater ⊢
  exact fun hbefore => hlater (contains_writeDefault.mpr (.inl hbefore))

/-- A free switch is still free once another one that is no rival of it has been written. -/
theorem Free.writeDefault_of_not_rivals {switch other : Switch} (h : Free view switch)
    (hne : switch ≠ other) (hrivals : ¬Rivals view switch other) :
    Free (writeDefault view other) switch := by
  intro name hname
  rw [Bool.eq_false_iff, ne_eq, contains_writeDefault, not_or]
  refine ⟨by simp [h name hname], ?_⟩
  rintro ⟨_, hfree, hother⟩
  exact hrivals ⟨hne, h, hfree, name, hname, hother⟩

theorem Peaceful.writeDefault {switch : Switch} (h : Peaceful view (switch :: switches)) :
    Peaceful (writeDefault view switch) switches := by
  rintro a ha b hb ⟨hne, hfree, hfree', hmeet⟩
  exact h a (List.mem_cons_of_mem _ ha) b (List.mem_cons_of_mem _ hb)
    ⟨hne, hfree.of_writeDefault, hfree'.of_writeDefault, hmeet⟩

/-! ## Without rivals -/

/-- Without rivals every free switch is written. -/
theorem get?_foldl_writeDefault (peaceful : Peaceful view switches)
    (defaulted : ∀ s ∈ switches, s.default.isSome = true) {name : String} {values : List String} :
    (switches.foldl writeDefault view).get? name = some values ↔
      view.get? name = some values ∨
        ∃ s ∈ switches, Free view s ∧ name ∈ s.names ∧ s.default = some values := by
  induction switches generalizing view with
  | nil => simp
  | cons d rest ih =>
      obtain ⟨hd, hrest⟩ := List.forall_mem_cons.mp defaulted
      rw [List.foldl_cons, ih peaceful.writeDefault hrest]
      by_cases hfree : Free view d
      · obtain ⟨w, hw⟩ := Option.isSome_iff_exists.mp hd
        rw [get?_writeDefault_of_free hfree hw]
        constructor
        · rintro (h | ⟨s, hs, hsfree, hname, hvalues⟩)
          · split_ifs at h with hname
            · exact .inr ⟨d, List.mem_cons_self, hfree, hname, hw.trans h⟩
            · exact .inl h
          · exact .inr ⟨s, List.mem_cons_of_mem _ hs, hsfree.of_writeDefault, hname, hvalues⟩
        · rintro (h | ⟨s, hs, hsfree, hname, hvalues⟩)
          · have hname : name ∉ d.names := fun hmem => by
              simpa [NameMap.contains, h] using hfree name hmem
            exact .inl (by rw [if_neg hname, h])
          · by_cases heq : s = d
            · subst heq
              exact .inl (by rw [if_pos hname, ← hw, hvalues])
            · have hs := (List.mem_cons.mp hs).resolve_left heq
              have hrivals := peaceful s (List.mem_cons_of_mem _ hs) d List.mem_cons_self
              exact .inr ⟨s, hs, hsfree.writeDefault_of_not_rivals heq hrivals, hname, hvalues⟩
      · rw [writeDefault_of_not_free hfree]
        refine or_congr_right (exists_congr fun s => ?_)
        rw [List.mem_cons]
        constructor
        · rintro ⟨hs, h⟩
          exact ⟨.inr hs, h⟩
        · rintro ⟨rfl | hs, hsfree, h⟩
          · exact absurd hsfree hfree
          · exact ⟨hs, hsfree, h⟩

theorem foldl_writeDefault_perm {switches' : List Switch} (perm : switches'.Perm switches)
    (peaceful : Peaceful view switches) (defaulted : ∀ s ∈ switches, s.default.isSome = true) :
    switches'.foldl writeDefault view = switches.foldl writeDefault view := by
  have hpeaceful : Peaceful view switches' := fun a ha b hb =>
    peaceful a (perm.mem_iff.mp ha) b (perm.mem_iff.mp hb)
  refine NameMap.ext_get? fun name => Option.ext fun values => ?_
  rw [get?_foldl_writeDefault hpeaceful fun s hs => defaulted s (perm.mem_iff.mp hs),
    get?_foldl_writeDefault peaceful defaulted]
  simp only [perm.mem_iff]

/-! ## With rivals -/

/-- A name that was not there before came with a free switch, all of whose names are there now. -/
theorem exists_of_contains_foldl {name : String}
    (h : (switches.foldl writeDefault view).contains name = true)
    (hnew : view.contains name = false) :
    ∃ s ∈ switches, Free view s ∧ name ∈ s.names ∧
      ∀ n ∈ s.names, (switches.foldl writeDefault view).contains n = true := by
  induction switches generalizing view with
  | nil =>
      rw [List.foldl_nil, hnew] at h
      cases h
  | cons d rest ih =>
      rw [List.foldl_cons] at h ⊢
      by_cases hnow : (writeDefault view d).contains name = true
      · obtain hold | ⟨hd, hfree, hname⟩ := contains_writeDefault.mp hnow
        · rw [hnew] at hold
          cases hold
        · refine ⟨d, List.mem_cons_self, hfree, hname, fun n hn => ?_⟩
          have hn' := contains_writeDefault.mpr (.inr ⟨hd, hfree, hn⟩)
          rwa [NameMap.contains, get?_foldl_writeDefault_of_contains hn']
      · obtain ⟨s, hs, hfree, hname, hall⟩ := ih h (Bool.eq_false_iff.mpr hnow)
        exact ⟨s, List.mem_cons_of_mem _ hs, hfree.of_writeDefault, hname, hall⟩

namespace Rivals
variable {a b : Switch}

theorem symm (h : Rivals view a b) : Rivals view b a :=
  ⟨h.1.symm, h.2.2.1, h.2.1, h.2.2.2.imp fun _ hn => ⟨hn.2, hn.1⟩⟩

end Rivals

variable {tables : SwitchTables} {short long : Supplied}

/-- Nothing supplied writes a name with another value than something else supplied. -/
def WritesAlike (tables : SwitchTables) (short long : Supplied) : Prop :=
  ∀ e ∈ tables.writes short.entries long.entries,
    ∀ e' ∈ tables.writes short.entries long.entries, e.1 = e'.1 → e.2 = e'.2

instance (tables : SwitchTables) (short long : Supplied) :
    Decidable (tables.WritesAlike short long) :=
  inferInstanceAs (Decidable (∀ e ∈ tables.writes short.entries long.entries,
    ∀ e' ∈ tables.writes short.entries long.entries, e.1 = e'.1 → e.2 = e'.2))

theorem WritesAlike.ofList_eq (alike : tables.WritesAlike short long)
    {shortEntries longEntries : List (String × List String)}
    (hshort : shortEntries.Perm short.entries) (hlong : longEntries.Perm long.entries) :
    NameMap.ofList (tables.writes shortEntries longEntries) =
      NameMap.ofList (tables.writes short.entries long.entries) :=
  NameMap.ofList_congr alike fun e => by
    rw [mem_writes hshort hlong, mem_writes (.refl _) (.refl _)]

theorem mem_withDefaults {entries : List (String × Switch)} {s : Switch} :
    s ∈ withDefaults entries ↔ s.default.isSome = true ∧ ∃ key, (key, s) ∈ entries := by
  simp [withDefaults, and_comm]

theorem withDefaults_perm {entries entries' : List (String × Switch)}
    (h : entries.Perm entries') : (withDefaults entries).Perm (withDefaults entries') :=
  (h.map _).filter _

/-- What merging may come to is the same in all orders where no defaults are rivals. -/
theorem Merged.eq_merge {view : Supplied} (h : tables.Merged short long view)
    (alike : tables.WritesAlike short long)
    (peacefulShort : Peaceful (tables.mergeInOrder short.entries long.entries [] [])
      (tables.defaulted .short))
    (peacefulLong : Peaceful (tables.mergeInOrder short.entries long.entries
      (tables.defaulted .short) []) (tables.defaulted .long)) :
    view = tables.merge short long := by
  obtain ⟨hshort, hlong, hshortOptional, hlongOptional⟩ := h
  simp only [mergeInOrder_eq, List.foldl_nil] at peacefulShort peacefulLong
  have defaulted : ∀ kind, ∀ s ∈ tables.defaulted kind, s.default.isSome = true :=
    fun kind s hs => (mem_withDefaults.mp hs).1
  rw [merge, mergeInOrder_eq, mergeInOrder_eq, alike.ofList_eq hshort hlong,
    foldl_writeDefault_perm (withDefaults_perm hshortOptional) peacefulShort (defaulted .short)]
  exact foldl_writeDefault_perm (withDefaults_perm hlongOptional) peacefulLong (defaulted .long)

namespace Keyed
variable (keyed : tables.Keyed) {kind : NameKind} {a b s s' : Switch}
include keyed

theorem exists_key (h : s ∈ tables.defaulted kind) :
    ∃ key, (tables.names kind).optional.get? key = some s ∧ s.nameOf kind = some key := by
  obtain ⟨_, key, hmem⟩ := mem_withDefaults.mp h
  have hget := NameMap.mem_entries.mp hmem
  exact ⟨key, hget, keyed kind key s hget⟩

end Keyed

end SwitchTables

namespace CommandTree

end CommandTree
end CommandRoutes
