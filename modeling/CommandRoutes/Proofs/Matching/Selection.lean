import CommandRoutes.Matching
import CommandRoutes.Proofs.Tree.Shape

/-!
# Selecting a switch item

A switch item is selected when switches are supplied and all of its predicates
hold of them. Of several such items below an item the one declared first is
taken. It is the target of an input that leads to their parent; where no switch
item is selected the parent is the target itself.
-/
namespace CommandRoutes.CommandTree

variable {t : CommandTree} {short long : Supplied}

/-- Some switch is supplied, and every predicate of the switch item holds of the values supplied
for its id. -/
def Selects (t : CommandTree) (short long : Supplied) (item : ItemId) : Prop :=
  ¬(short.isEmpty = true ∧ long.isEmpty = true) ∧
  ∃ predicates, t.predicates? item = some predicates ∧ ∀ p ∈ predicates, ∃ values,
    (Supplied.union short long).get? p.id = some values ∧ p.isMetBy values = true

/-- The item whose switches are verified where commands lead to `item`: the first declared of its
switch items that are selected, or else the item itself. -/
inductive Target (t : CommandTree) (short long : Supplied) (item : ItemId) : ItemId → Prop
  | selected {before after : List ItemId} {target : ItemId} :
      t.occupants item .switchItem = before ++ target :: after → t.Selects short long target →
      (∀ i ∈ before, ¬t.Selects short long i) → Target t short long item target
  | own : (∀ i ∈ t.occupants item .switchItem, ¬t.Selects short long i) →
      Target t short long item item

theorem holds_iff {supplied : Supplied} {predicates : List Predicate} :
    holds supplied predicates = true ↔ ∀ p ∈ predicates, ∃ values,
      supplied.get? p.id = some values ∧ p.isMetBy values = true := by
  rw [holds, List.all_eq_true]
  refine forall₂_congr fun p _ => ?_
  cases supplied.get? p.id <;> simp

theorem selectItem?_eq_find? (id : ItemId) (hsome : ¬(short.isEmpty = true ∧ long.isEmpty = true)) :
    t.selectItem? id short long = (t.occupants id .switchItem).find? fun item =>
      (t.predicates? item).any (holds (.union short long)) := by
  rw [selectItem?, if_neg hsome]
  cases hb : t.branch? id with
  | none => simp [occupants, hb]
  | some b =>
      simp only [occupants, hb, Option.map_some, Option.getD_some, Branch.occupants]
      congr
      funext item
      rw [predicates?]
      cases (t.get? item).bind PathItem.predicates? <;> rfl

theorem selects_iff_any (hsome : ¬(short.isEmpty = true ∧ long.isEmpty = true)) {item : ItemId} :
    t.Selects short long item ↔ (t.predicates? item).any (holds (.union short long)) = true := by
  rw [Selects, and_iff_right hsome, Option.any_eq_true]
  exact exists_congr fun predicates => and_congr_right fun _ => holds_iff.symm

theorem selectItem?_eq_some_iff {id item : ItemId} :
    t.selectItem? id short long = some item ↔ ∃ before after,
      t.occupants id .switchItem = before ++ item :: after ∧ t.Selects short long item ∧
      ∀ i ∈ before, ¬t.Selects short long i := by
  by_cases hsome : short.isEmpty = true ∧ long.isEmpty = true
  · simp [selectItem?, hsome, Selects]
  · simp only [selectItem?_eq_find? id hsome, List.find?_eq_some_iff_append, selects_iff_any hsome,
      Bool.not_eq_true', Bool.not_eq_true]
    constructor
    · rintro ⟨hitem, before, after, heq, hbefore⟩
      exact ⟨before, after, heq, hitem, hbefore⟩
    · rintro ⟨before, after, heq, hitem, hbefore⟩
      exact ⟨hitem, before, after, heq, hbefore⟩

theorem selectItem?_eq_none_iff {id : ItemId} :
    t.selectItem? id short long = none ↔
      ∀ i ∈ t.occupants id .switchItem, ¬t.Selects short long i := by
  by_cases hsome : short.isEmpty = true ∧ long.isEmpty = true
  · simp [selectItem?, hsome, Selects]
  · simp only [selectItem?_eq_find? id hsome, List.find?_eq_none, selects_iff_any hsome]

/-- There is one target, and selecting finds it. -/
theorem target_iff {item target : ItemId} :
    t.Target short long item target ↔ (t.selectItem? item short long).getD item = target := by
  constructor
  · rintro (⟨heq, hselected, hbefore⟩ | ⟨hnone⟩)
    · rw [selectItem?_eq_some_iff.mpr ⟨_, _, heq, hselected, hbefore⟩, Option.getD_some]
    · rw [selectItem?_eq_none_iff.mpr hnone, Option.getD_none]
  · rintro rfl
    cases h : t.selectItem? item short long with
    | none => exact .own (selectItem?_eq_none_iff.mp h)
    | some switchItem =>
        obtain ⟨before, after, heq, hselected, hbefore⟩ := selectItem?_eq_some_iff.mp h
        exact .selected heq hselected hbefore

end CommandRoutes.CommandTree
