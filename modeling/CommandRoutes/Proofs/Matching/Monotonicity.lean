import CommandRoutes.Proofs.Matching.Selection
import CommandRoutes.Proofs.Tree.Growing

/-!
# Selecting with more switches

Whether a switch is supplied under a short or under a long name is all one to a predicate: it holds
of both maps together if it holds of one of them. What is selected therefore depends on the names
supplied and on the values of each, not on their order, on repetitions, or on the map they are in.
More names and values keep every predicate that holds, so that a switch item is still selected, the
same or one declared earlier.
-/
namespace CommandRoutes

namespace Predicate
variable {p : Predicate} {supplied short long : Supplied}

theorem isMetBy_append (values more : List String) :
    p.isMetBy (values ++ more) = (p.isMetBy values || p.isMetBy more) := by
  unfold isMetBy
  cases p.value with
  | none => rfl
  | some literal => simp

/-- The id is supplied, with values that meet the predicate. -/
def HoldsOf (p : Predicate) (supplied : Supplied) : Prop :=
  ∃ values, supplied.get? p.id = some values ∧ p.isMetBy values = true

theorem holdsOf_append {name : String} {values : List String} :
    p.HoldsOf (Supplied.append supplied name values) ↔
      p.HoldsOf supplied ∨ name = p.id ∧ p.isMetBy values = true := by
  unfold HoldsOf
  rw [Supplied.get?_append]
  by_cases hname : p.id = name
  · subst hname
    cases supplied.get? p.id <;> simp [isMetBy_append]
  · simp [hname, Ne.symm hname]

theorem holdsOf_foldl_append (entries : List (String × List String)) :
    p.HoldsOf (entries.foldl (fun m e => Supplied.append m e.1 e.2) supplied) ↔
      p.HoldsOf supplied ∨ ∃ e ∈ entries, e.1 = p.id ∧ p.isMetBy e.2 = true := by
  induction entries generalizing supplied with
  | nil => simp
  | cons e rest ih =>
      rw [List.foldl_cons, ih, holdsOf_append, List.exists_mem_cons_iff, or_assoc]

theorem holdsOf_iff_exists_entry :
    p.HoldsOf supplied ↔ ∃ e ∈ supplied.entries, e.1 = p.id ∧ p.isMetBy e.2 = true := by
  constructor
  · rintro ⟨values, hget, hmet⟩
    exact ⟨(p.id, values), NameMap.mem_entries.mpr hget, rfl, hmet⟩
  · rintro ⟨⟨name, values⟩, hmem, rfl, hmet⟩
    exact ⟨values, NameMap.mem_entries.mp hmem, hmet⟩

/-- What holds of one of the maps holds of both together. -/
theorem holdsOf_union :
    p.HoldsOf (.union short long) ↔ p.HoldsOf short ∨ p.HoldsOf long := by
  have hempty : ¬p.HoldsOf .empty := by
    rintro ⟨values, hget, _⟩
    cases hget
  rw [Supplied.union, holdsOf_foldl_append, or_iff_right hempty, holdsOf_iff_exists_entry,
    holdsOf_iff_exists_entry]
  simp only [List.mem_append, or_and_right, exists_or]

end Predicate

namespace Supplied

/-- The switch is supplied, in one map or the other. -/
def Names (short long : Supplied) (name : String) : Prop :=
  short.contains name = true ∨ long.contains name = true

/-- The value is supplied for the switch, in one map or the other. -/
def Gives (short long : Supplied) (name value : String) : Prop :=
  (∃ values, short.get? name = some values ∧ value ∈ values) ∨
    ∃ values, long.get? name = some values ∧ value ∈ values

/-- All that the first two maps supply together, the second two supply together. -/
structure Covers (short long short' long' : Supplied) : Prop where
  names : ∀ name, Names short long name → Names short' long' name
  values : ∀ name value, Gives short long name value → Gives short' long' name value

variable {short long short' long' : Supplied}

/-- A predicate asks for a name, or for a name with a value. -/
theorem holdsOf_union_iff {p : Predicate} :
    p.HoldsOf (.union short long) ↔
      Names short long p.id ∧ ∀ literal ∈ p.value, Gives short long p.id literal.text := by
  rw [Predicate.holdsOf_union]
  unfold Predicate.HoldsOf Predicate.isMetBy Names Gives
  cases p.value with
  | none => simp [NameMap.contains_iff]
  | some literal =>
      simp only [List.contains_iff_mem, Option.mem_some_iff, forall_eq']
      constructor
      · intro h
        refine ⟨h.imp ?_ ?_, h⟩ <;>
        · rintro ⟨values, hget, _⟩
          exact NameMap.contains_iff.mpr ⟨values, hget⟩
      · exact fun h => h.2

theorem Covers.holdsOf (covers : Covers short long short' long') {p : Predicate}
    (h : p.HoldsOf (.union short long)) : p.HoldsOf (.union short' long') := by
  rw [holdsOf_union_iff] at h ⊢
  exact ⟨covers.names _ h.1, fun literal hliteral => covers.values _ _ (h.2 literal hliteral)⟩

theorem exists_names_iff :
    (∃ name, Names short long name) ↔ ¬(short.isEmpty = true ∧ long.isEmpty = true) := by
  rw [not_and_or, Bool.not_eq_true, Bool.not_eq_true, NameMap.isEmpty_eq_false_iff,
    NameMap.isEmpty_eq_false_iff, ← exists_or]
  rfl

end Supplied

namespace CommandTree
variable {t : CommandTree} {id item : ItemId} {short long short' long' : Supplied}

theorem Selects.of_covers (h : t.Selects short long item)
    (covers : Supplied.Covers short long short' long') : t.Selects short' long' item := by
  obtain ⟨hsome, predicates, hpredicates, hholds⟩ := h
  have hsome' : ∃ name, Supplied.Names short' long' name :=
    (Supplied.exists_names_iff.mpr hsome).imp covers.names
  exact ⟨Supplied.exists_names_iff.mp hsome', predicates, hpredicates,
    fun p hp => covers.holdsOf (hholds p hp)⟩

/-- Selecting looks at nothing but the names that are supplied and the values of each, in both maps
together. With more of them it selects the same switch item or one declared earlier. -/
theorem selectItem?_of_covers (covers : Supplied.Covers short long short' long') :
    (Supplied.Covers short' long' short long →
      t.selectItem? id short' long' = t.selectItem? id short long) ∧
    ∀ (i : Nat) item, (t.occupants id .switchItem)[i]? = some item →
      t.selectItem? id short long = some item →
      ∃ j ≤ i, ∃ item', (t.occupants id .switchItem)[j]? = some item' ∧
        t.selectItem? id short' long' = some item' := by
  constructor
  · intro covered
    have hselects : ∀ item, t.Selects short' long' item ↔ t.Selects short long item :=
      fun item => ⟨fun h => h.of_covers covered, fun h => h.of_covers covers⟩
    refine Option.ext fun item => ?_
    simp only [selectItem?_eq_some_iff, hselects]
  · intro i item hi hselected
    obtain ⟨_, _, _, hselects, _⟩ := selectItem?_eq_some_iff.mp hselected
    have hselects' := hselects.of_covers covers
    cases h : t.selectItem? id short' long' with
    | none => exact absurd hselects' (selectItem?_eq_none_iff.mp h item (List.mem_of_getElem? hi))
    | some item' =>
        obtain ⟨before, after, heq, _, hbefore⟩ := selectItem?_eq_some_iff.mp h
        refine ⟨before.length, ?_, item', by simp [heq], rfl⟩
        -- an item in front of the one selected now was not selected before either
        by_contra hlater
        rw [heq, List.getElem?_append_left (Nat.lt_of_not_le hlater)] at hi
        exact hbefore item (List.mem_of_getElem? hi) hselects'

/-- The value moves to the other map, gets company there, and a second switch is supplied: another
switch item, declared earlier, is selected. -/
theorem selectItem?_of_covers_moved_value :
    let t := (((CommandTree.new.perform (.route "x[out=json]")).tree.perform
      (.route "x[force]")).tree.perform (.route "x[out='a b']")).tree
    let short : Supplied := NameMap.empty.insert "out" ["a b"]
    let short' : Supplied := NameMap.empty.insert "force" []
    let long' : Supplied := NameMap.empty.insert "out" ["c", "a b"]
    Supplied.Covers short .empty short' long' ∧ t.occupants 1 .switchItem = [2, 3, 4] ∧
      t.selectItem? 1 short .empty = some 4 ∧ t.selectItem? 1 short' long' = some 3 ∧
      ∃ j ≤ 2, ∃ item', (t.occupants 1 .switchItem)[j]? = some item' ∧
        t.selectItem? 1 short' long' = some item' := by
  intro t short short' long'
  have covers : Supplied.Covers short .empty short' long' := by
    constructor
    · intro name hname
      have hout : name = "out" := by
        simpa [Supplied.Names, NameMap.contains_iff, short] using hname
      subst hout
      exact .inr (by decide)
    · intro name value hvalue
      obtain ⟨rfl, rfl⟩ : name = "out" ∧ value = "a b" := by
        simpa [Supplied.Gives, short] using hvalue
      exact .inr ⟨["c", "a b"], by decide, by decide⟩
  have hselected : t.selectItem? 1 short .empty = some 4 := by decide +kernel
  exact ⟨covers, by decide +kernel, hselected, by decide +kernel,
    (selectItem?_of_covers covers).2 2 4 (by decide +kernel) hselected⟩

end CommandTree
end CommandRoutes
