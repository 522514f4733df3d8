import CommandRoutes.Proofs.Verification.Asking
import CommandRoutes.Proofs.Verification.Merging

/-!
# Switches at switch items

What counts at a switch item are its own switches and, behind them, all that counts at its parent,
in the same order. A switch item that has no switches of its own is therefore verified and merged
like its parent, and an input that selects it is accepted just if the parent accepts it.
-/
namespace CommandRoutes.CommandTree

variable {t : CommandTree}

theorem ownDeclarations_eq_nil {id : ItemId} {item : PathItem} (hitem : t.get? id = some item)
    (required : item.required = .empty) (optional : item.optional = .empty) :
    t.ownDeclarations id = [] := by
  rw [ownDeclarations, hitem, Option.map_some, Option.getD_some, required, optional]
  rfl

namespace WellFormed
variable (w : t.WellFormed)
include w

/-- The ancestors of a switch item declare what those of its parent do, for it owns no branch. -/
theorem commonDeclarations_above {verb id : ItemId} (h : id ∈ t.occupants verb .switchItem) :
    (t.ancestry id).flatMap t.commonDeclarations =
      (t.ancestry verb).flatMap t.commonDeclarations := by
  obtain ⟨hparent, hslot⟩ := w.occupant h
  have hbranch : t.branch? id = none :=
    (branch?_eq_none_iff (w.occupant_lt_size h)).mpr (.inr hslot)
  have hcommon : t.commonDeclarations id = [] := by
    rw [commonDeclarations, hbranch, Option.map_none, Option.getD_none]
  have habove : t.ancestry id = id :: t.ancestry verb := by
    rw [w.ancestry_eq, hparent, Option.map_some, Option.getD_some]
  rw [habove, List.flatMap_cons, hcommon, List.nil_append]

/-- A switch item has its own switches in front of those of its parent. -/
theorem reachable_switchItem {verb id : ItemId} (h : id ∈ t.occupants verb .switchItem) :
    t.reachable id = t.ownDeclarations id ++ t.reachable verb := by
  obtain ⟨b, hb, _⟩ := exists_branch_of_mem_occupants h
  have hitem : t.holder? id = some verb := w.holder?_of_mem_occupants h
  have hverb : t.holder? verb = none := holder?_of_branch? hb
  unfold reachable declared
  rw [hitem, hverb, w.commonDeclarations_above h]
  simp only [Option.map_some, Option.map_none, Option.getD_some, Option.getD_none,
    List.append_nil, List.append_assoc]

end WellFormed

/-- A switch item without switches of its own has a parent, and for all inputs it is verified with
the result of the parent, fault or none, and merged to the same views as the parent. -/
theorem Reachable.verify_switchItem (h : t.Reachable) {id : ItemId} {item : PathItem}
    (hitem : t.get? id = some item) (hslot : t.slot? id = some .switchItem)
    (required : item.required = .empty) (optional : item.optional = .empty) :
    ∃ verb, t.parent? id = some verb ∧
      (∀ short long options, t.verify id short long options = t.verify verb short long options) ∧
      ∀ short long, t.mergedView id short long = t.mergedView verb short long ∧
        ∀ view, (t.switchTables id).Merged short long view ↔
          (t.switchTables verb).Merged short long view := by
  have w := h.wellFormed
  obtain ⟨verb, hparent⟩ := w.exists_parent_of_slot? hslot
  have hmem : id ∈ t.occupants verb .switchItem := w.mem_occupants.mpr ⟨hparent, hslot⟩
  have htables : t.switchTables id = t.switchTables verb := by
    rw [switchTables_eq, switchTables_eq, w.reachable_switchItem hmem,
      ownDeclarations_eq_nil hitem required optional, List.nil_append]
  refine ⟨verb, hparent, ?_, ?_⟩
  · intro short long options
    rw [verify, verify, htables]
  · intro short long
    rw [mergedView, mergedView, htables]
    exact ⟨rfl, fun _ => Iff.rfl⟩

/-- A required switch of the branch is missed, and the default of a common switch is shown, at the
switch item as at the branch. -/
theorem verify_switchItem_missing_required :
    let region : Switch :=
      { short := some "r", long := some "region", parameters := ["name"], named := rfl,
        short_wellFormed := by decide, long_wellFormed := by decide }
    let out : Switch :=
      { short := some "o", long := some "out", default := some ["a"], named := rfl,
        short_wellFormed := by decide, long_wellFormed := by decide }
    let t := CommandTree.new.performAll
      [.route "x[force]", .required 1 region, .commonOptional 0 out]
    let item : PathItem :=
      { name := "[force]", parent := some 1, kind := .switch [⟨"force", none⟩] }
    let long : Supplied := NameMap.empty.insert "force" []
    t.Reachable ∧ t.get? 2 = some item ∧ t.slot? 2 = some .switchItem ∧
      t.verify 2 .empty long {} = .error (.absentSwitch "-r/--region") ∧
      t.verify 1 .empty long {} = .error (.absentSwitch "-r/--region") ∧
      (t.mergedView 2 .empty long).get? "out" = some ["a"] := by
  intro region out t item long
  have reached : t.Reachable := Reachable.new.performAll _
  have hitem : t.get? 2 = some item := by decide +kernel
  have hslot : t.slot? 2 = some .switchItem := by decide +kernel
  obtain ⟨verb, hparent, hverify, hmerged⟩ := reached.verify_switchItem hitem hslot rfl rfl
  have hverb : t.parent? 2 = some 1 := by decide +kernel
  cases hparent.symm.trans hverb
  have habsent : t.verify 1 .empty long {} = .error (.absentSwitch "-r/--region") := by
    decide +kernel
  have hshown : (t.mergedView 1 .empty long).get? "out" = some ["a"] := by decide +kernel
  refine ⟨reached, hitem, hslot, (hverify _ _ _).trans habsent, habsent, ?_⟩
  rw [(hmerged _ _).1]
  exact hshown

end CommandRoutes.CommandTree
