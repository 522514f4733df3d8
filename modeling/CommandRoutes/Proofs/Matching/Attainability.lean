import CommandRoutes.Proofs.Matching.Walks
import Mathlib.Data.Fintype.EquivFin

/-!
# Which items commands lead to

A walk takes no choice back, so that an item is cut off where siblings take every token that would
lead to it. Static siblings never do, for a branch has finitely many names and aliases, and there
is always a token beside them. A dynamic sibling takes all of those and cuts the spread item off.
Every item that owns a branch is therefore led to, and it stays so whatever is registered later,
though the tokens may have to change.
-/
namespace CommandRoutes

theorem NameMap.get?_eq_none_iff {α : Type} {m : NameMap α} {name : String} :
    m.get? name = none ↔ name ∉ m.keys := by
  simp [keys, mem_entries, Option.eq_none_iff_forall_ne_some]

namespace CommandTree
variable {t : CommandTree}

/-- The items that are not cut off. -/
inductive Attainable (t : CommandTree) : ItemId → Prop
  | root : Attainable t rootId
  | static {id : ItemId} {name : String} : t.slot? id = some (.static name) → Attainable t id
  | dynamic {id : ItemId} : t.slot? id = some .dynamic → Attainable t id
  | spread {p id : ItemId} :
      t.SpreadChild p id → (∀ i, ¬t.DynamicChild p i) → Attainable t id

/-! ## Walks end at attainable items -/

theorem Walk.attainable {p n : ItemId} {tokens : List String} (walk : t.Walk p tokens n) :
    n = p ∨ t.Attainable n := by
  induction walk with
  | done => exact .inl rfl
  | literal hc _ ih =>
      rcases ih with rfl | h
      · obtain ⟨_, name, hslot, _⟩ := hc
        exact .inr (.static hslot)
      · exact .inr h
  | dynamic _ hc _ ih =>
      rcases ih with rfl | h
      · exact .inr (.dynamic hc.2)
      · exact .inr h
  | spread _ noDynamic hc => exact .inr (.spread hc noDynamic)

/-- A walk goes on from where another one ended, unless a spread item took the last tokens. -/
theorem Walk.append {p q n : ItemId} {tokens more : List String} (walk : t.Walk p tokens q)
    (hq : t.slot? q ≠ some .spread) (walk' : t.Walk q more n) :
    t.Walk p (tokens ++ more) n := by
  induction walk with
  | done => exact walk'
  | literal hc _ ih => exact .literal hc (ih hq walk')
  | dynamic silent hc _ ih => exact .dynamic silent hc (ih hq walk')
  | spread _ _ hc => exact absurd hc.2 hq

/-! ## Attainable items have walks to them -/

namespace WellFormed
variable (w : t.WellFormed)
include w

/-- Some token is neither the name nor an alias of any child. -/
theorem exists_unanswered (p : ItemId) : ∃ token, ∀ i, ¬t.Answers p token i := by
  simp only [← w.literal?_eq_none_iff, literal?]
  cases hb : t.branch? p with
  | none => exact ⟨"", rfl⟩
  | some b =>
      obtain ⟨token, hfresh⟩ :=
        Infinite.exists_notMem_finset (b.statics.keys ++ b.aliases.keys).toFinset
      rw [List.mem_toFinset, List.mem_append, not_or, ← NameMap.get?_eq_none_iff,
        ← NameMap.get?_eq_none_iff] at hfresh
      exact ⟨token, Option.or_eq_none_iff.mpr hfresh⟩

/-- Every item that owns a branch can be walked to. -/
theorem exists_walk_of_branch? {id : ItemId} {b : Branch} (hb : t.branch? id = some b) :
    ∃ tokens, t.Walk rootId tokens id := by
  induction id using Nat.strong_induction_on generalizing b with
  | _ id ih =>
      cases hp : t.parent? id with
      | none =>
          have hroot := (w.parent?_eq_none_iff (lt_size_of_branch? hb)).mp hp
          subst hroot
          exact ⟨[], .done⟩
      | some p =>
          obtain ⟨hlt, slot, hslot, _⟩ := w.placed hp
          obtain ⟨above, habove⟩ := w.exists_branch_of_parent? hp
          obtain ⟨tokens, walk⟩ := ih p hlt habove
          have noSpread := (exists_branch_iff.mp ⟨above, habove⟩).2.1
          cases slot with
          | static name =>
              have hname : t.Answers p name id := ⟨hp, name, hslot, .inl rfl⟩
              exact ⟨tokens ++ [name], walk.append noSpread (.literal hname .done)⟩
          | dynamic =>
              obtain ⟨token, silent⟩ := w.exists_unanswered p
              exact ⟨tokens ++ [token], walk.append noSpread (.dynamic silent ⟨hp, hslot⟩ .done)⟩
          | spread => exact absurd hslot (exists_branch_iff.mp ⟨b, hb⟩).2.1
          | switchItem => exact absurd hslot (exists_branch_iff.mp ⟨b, hb⟩).2.2

theorem exists_walk {id : ItemId} (h : t.Attainable id) : ∃ tokens, t.Walk rootId tokens id := by
  cases h with
  | root => exact ⟨[], .done⟩
  | static hslot =>
      obtain ⟨b, hb⟩ := exists_branch_iff.mpr ⟨lt_size_of_slot? hslot, by simp [hslot]⟩
      exact w.exists_walk_of_branch? hb
  | dynamic hslot =>
      obtain ⟨b, hb⟩ := exists_branch_iff.mpr ⟨lt_size_of_slot? hslot, by simp [hslot]⟩
      exact w.exists_walk_of_branch? hb
  | @spread p _ hc noDynamic =>
      obtain ⟨b, hb⟩ := w.exists_branch_of_parent? hc.1
      obtain ⟨tokens, walk⟩ := w.exists_walk_of_branch? hb
      obtain ⟨token, silent⟩ := w.exists_unanswered p
      have noSpread := (exists_branch_iff.mp ⟨b, hb⟩).2.1
      exact ⟨tokens ++ [token], walk.append noSpread (.spread silent noDynamic hc)⟩

end WellFormed

/-! ## Whatever is registered later -/

theorem Extends.exists_branch {t' : CommandTree} (h : t.Extends t') {id : ItemId} {b : Branch}
    (hb : t.branch? id = some b) : ∃ b', t'.branch? id = some b' := by
  obtain ⟨hlt, hslot⟩ := exists_branch_iff.mp ⟨b, hb⟩
  have hsame : t'.slot? id = t.slot? id := by
    rw [slot?_eq_map_segment?, slot?_eq_map_segment?, h.segment?_eq id hlt]
  rw [← hsame] at hslot
  exact exists_branch_iff.mpr ⟨Nat.lt_of_lt_of_le hlt h.size_le, hslot⟩

/-- Commands lead to the root, to every static and dynamic item and to the spread items without a
dynamic sibling, and to no other item. To an item that owns a branch some commands lead whatever
calls follow. -/
theorem Reachable.exists_destination_iff (h : t.Reachable) (id : ItemId) :
    ((∃ tokens, t.destination? tokens = some id) ↔ t.Attainable id) ∧
    ∀ later b, t.branch? id = some b →
      ∃ tokens, (t.performAll later).destination? tokens = some id := by
  have w := h.wellFormed
  constructor
  · constructor
    · intro ⟨tokens, hled⟩
      rcases (w.destinationFrom?_eq_some.mp hled).attainable with rfl | attainable
      · exact .root
      · exact attainable
    · intro attainable
      obtain ⟨tokens, walk⟩ := w.exists_walk attainable
      exact ⟨tokens, w.destinationFrom?_eq_some.mpr walk⟩
  · intro later b hb
    have wLater := (h.performAll later).wellFormed
    obtain ⟨b', hb'⟩ := (Extends.of_edits (edits_performAll later t)).exists_branch hb
    obtain ⟨tokens, walk⟩ := wLater.exists_walk_of_branch? hb'
    exact ⟨tokens, wLater.destinationFrom?_eq_some.mpr walk⟩

/-- Beside a dynamic item and an alias, a spread item is never led to, the spread item of another
branch is, and so is the dynamic item after its branch has been given more names. -/
theorem exists_destination_iff_dynamic_beside_spread :
    let t := CommandTree.new.performAll [.route "get/:key", .route "get/...keys",
      .route "set/...pairs", .route "get/all", .giveAlias 6 "every"]
    let later := t.performAll [.route "get/none", .giveAlias 7 "nothing", .spread 2 "rest"]
    t.Reachable ∧ t.slot? 2 = some .dynamic ∧ t.SpreadChild 1 3 ∧ t.SpreadChild 4 5 ∧
      (∀ tokens, t.destination? tokens ≠ some 3) ∧
      (∃ tokens, t.destination? tokens = some 5) ∧
      ∃ tokens, later.destination? tokens = some 2 := by
  intro t later
  have reached : t.Reachable := Reachable.new.performAll _
  have hdynamic : t.slot? 2 = some .dynamic := by decide +kernel
  have beside : t.SpreadChild 1 3 := by constructor <;> decide +kernel
  have alone : t.SpreadChild 4 5 := by constructor <;> decide +kernel
  have noDynamic : ∀ i, ¬t.DynamicChild 4 i :=
    reached.wellFormed.dynamic?_eq_none_iff.mp (by decide +kernel)
  refine ⟨reached, hdynamic, beside, alone, ?_, ?_, ?_⟩
  · intro tokens hled
    have attainable := (reached.exists_destination_iff 3).1.mp ⟨tokens, hled⟩
    cases attainable with
    | static hslot => cases hslot.symm.trans beside.2
    | dynamic hslot => cases hslot.symm.trans beside.2
    | spread hc noDynamic =>
        cases hc.1.symm.trans beside.1
        exact noDynamic 2 ⟨by decide +kernel, hdynamic⟩
  · exact (reached.exists_destination_iff 5).1.mpr (.spread alone noDynamic)
  · obtain ⟨b, hb⟩ := exists_branch_iff.mpr ⟨lt_size_of_slot? hdynamic, by simp [hdynamic]⟩
    exact (reached.exists_destination_iff 2).2 _ b hb

end CommandTree
end CommandRoutes
