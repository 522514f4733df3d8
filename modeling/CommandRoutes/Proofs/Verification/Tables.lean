import CommandRoutes.Proofs.Verification.Declarations
import Mathlib.Data.List.Basic

/-!
# What the tables of an item hold

The tables of an item say what the list of all switches that count there says:
the first switch of the list that has a name decides about the name, and all
required switches are there in order. Under a name that a nearer switch has too,
a switch is in no table, though it may be under its other name.
-/
namespace CommandRoutes

namespace NameTable

variable (names : NameTable) (name : Option String) (n : String)

variable {names n} in
theorem required_eq_none (h : names.knows n = false) : names.required.get? n = none :=
  NameMap.contains_eq_false_iff.mp (Bool.or_eq_false_iff.mp h).1

variable {names n} in
theorem optional_eq_none (h : names.knows n = false) : names.optional.get? n = none :=
  NameMap.contains_eq_false_iff.mp (Bool.or_eq_false_iff.mp h).2

/-- What is entered into one of the two maps unless its name is known. -/
theorem get?_insert_unless {α : Type} (m : NameMap α) (own : String) (value : α)
    (fresh : names.knows own = false → m.get? own = none) :
    (if names.knows own then m else m.insert own value).get? n =
      (m.get? n).or (if some own = some n ∧ names.knows n = false then some value else none) := by
  by_cases hown : own = n
  · subst hown
    cases hknown : names.knows own with
    | true => simp
    | false => simp [fresh hknown]
  · cases names.knows own with
    | true => simp [hown]
    | false => simp [hown, Ne.symm hown]

theorem required_enterRequired (position : Nat) :
    (names.enterRequired name position).required.get? n =
      (names.required.get? n).or
        (if name = some n ∧ names.knows n = false then some position else none) := by
  unfold enterRequired
  cases name with
  | none => simp
  | some own =>
      rw [← names.get?_insert_unless n names.required own position required_eq_none]
      dsimp only
      cases names.knows own <;> rfl

theorem optional_enterRequired (position : Nat) :
    (names.enterRequired name position).optional = names.optional := by
  unfold enterRequired
  cases name with
  | none => rfl
  | some own =>
      dsimp only
      split_ifs <;> rfl

theorem optional_enterOptional (switch : Switch) :
    (names.enterOptional name switch).optional.get? n =
      (names.optional.get? n).or
        (if name = some n ∧ names.knows n = false then some switch else none) := by
  unfold enterOptional
  cases name with
  | none => simp
  | some own =>
      rw [← names.get?_insert_unless n names.optional own switch optional_eq_none]
      dsimp only
      cases names.knows own <;> rfl

theorem required_enterOptional (switch : Switch) :
    (names.enterOptional name switch).required = names.required := by
  unfold enterOptional
  cases name with
  | none => rfl
  | some own =>
      dsimp only
      split_ifs <;> rfl

theorem knows_enterRequired (position : Nat) :
    (names.enterRequired name position).knows n = (names.knows n || decide (name = some n)) := by
  unfold enterRequired
  cases name with
  | none => simp
  | some own =>
      dsimp only
      by_cases hown : own = n
      · subst hown
        cases hknown : names.knows own with
        | true => simp [hknown]
        | false => simp [knows, NameMap.contains]
      · cases names.knows own with
        | true => simp [hown]
        | false => simp [knows, NameMap.contains, hown, Ne.symm hown]

theorem knows_enterOptional (switch : Switch) :
    (names.enterOptional name switch).knows n = (names.knows n || decide (name = some n)) := by
  unfold enterOptional
  cases name with
  | none => simp
  | some own =>
      dsimp only
      by_cases hown : own = n
      · subst hown
        cases hknown : names.knows own with
        | true => simp [hknown]
        | false => simp [knows, NameMap.contains]
      · cases names.knows own with
        | true => simp [hown]
        | false => simp [knows, NameMap.contains, hown, Ne.symm hown]

end NameTable

namespace SwitchTables

def declare (tables : SwitchTables) (d : Declaration) : SwitchTables :=
  if d.isRequired then tables.addRequired d.switch else tables.addOptional d.switch

/-- Every position is one of a required switch. -/
def Sound (tables : SwitchTables) : Prop :=
  ∀ kind name position, (tables.names kind).required.get? name = some position →
    position < tables.required.length

variable {tables : SwitchTables}

theorem names_addRequired (switch : Switch) (kind : NameKind) :
    (tables.addRequired switch).names kind =
      (tables.names kind).enterRequired (switch.nameOf kind) tables.required.length := by
  cases kind <;> rfl

theorem names_addOptional (switch : Switch) (kind : NameKind) :
    (tables.addOptional switch).names kind =
      (tables.names kind).enterOptional (switch.nameOf kind) switch := by
  cases kind <;> rfl

theorem sound_empty : Sound {} := by
  intro kind n position h
  cases kind <;> cases h

/-- A required switch is found under the names that were not known before. -/
theorem find?_addRequired (sound : tables.Sound) (switch : Switch) (kind : NameKind)
    (n : String) :
    (tables.addRequired switch).find? kind n =
      (tables.find? kind n).or (if switch.nameOf kind = some n then some switch else none) := by
  unfold find?
  rw [names_addRequired, NameTable.required_enterRequired, NameTable.optional_enterRequired]
  cases hreq : (tables.names kind).required.get? n with
  | some position =>
      have hlt := sound kind n position hreq
      simp [addRequired, hlt, List.getElem?_append_left]
  | none =>
      cases hopt : (tables.names kind).optional.get? n with
      | some own => simp [NameTable.knows, NameMap.contains, hopt]
      | none =>
          have hknown : (tables.names kind).knows n = false := by
            simp [NameTable.knows, NameMap.contains, hreq, hopt]
          by_cases hname : switch.nameOf kind = some n
          · simp [hname, hknown, addRequired]
          · simp [hname]

theorem find?_addOptional (sound : tables.Sound) (switch : Switch) (kind : NameKind)
    (n : String) :
    (tables.addOptional switch).find? kind n =
      (tables.find? kind n).or (if switch.nameOf kind = some n then some switch else none) := by
  unfold find?
  rw [names_addOptional, NameTable.required_enterOptional, NameTable.optional_enterOptional]
  cases hreq : (tables.names kind).required.get? n with
  | some position =>
      have hlt := sound kind n position hreq
      simp [addOptional, hlt]
  | none =>
      cases hopt : (tables.names kind).optional.get? n with
      | some own => simp
      | none => simp [NameTable.knows, NameMap.contains, hreq, hopt]

theorem find?_declare (sound : tables.Sound) (d : Declaration) (kind : NameKind) (n : String) :
    (tables.declare d).find? kind n =
      (tables.find? kind n).or (if d.switch.nameOf kind = some n then some d.switch else none) := by
  unfold declare
  by_cases hd : d.isRequired = true
  · rw [if_pos hd, find?_addRequired sound]
  · rw [if_neg hd, find?_addOptional sound]

theorem required_declare (d : Declaration) :
    (tables.declare d).required =
      tables.required ++ if d.isRequired then [d.switch] else [] := by
  unfold declare
  split_ifs
  · rfl
  · simp [addOptional]

theorem Sound.declare (sound : tables.Sound) (d : Declaration) : (tables.declare d).Sound := by
  intro kind n position h
  unfold SwitchTables.declare at h ⊢
  split_ifs at h ⊢
  · rw [names_addRequired, NameTable.required_enterRequired] at h
    have hlength : (tables.addRequired d.switch).required.length = tables.required.length + 1 := by
      simp [addRequired]
    rw [hlength]
    rcases Option.or_eq_some_iff.mp h with hold | ⟨_, hnew⟩
    · exact Nat.lt_succ_of_lt (sound kind n position hold)
    · split_ifs at hnew
      cases hnew
      exact Nat.lt_succ_self _
  · rw [names_addOptional, NameTable.required_enterOptional] at h
    exact sound kind n position h

theorem knows_declare (d : Declaration) (kind : NameKind) (n : String) :
    ((tables.declare d).names kind).knows n =
      ((tables.names kind).knows n || decide (d.switch.nameOf kind = some n)) := by
  unfold declare
  split_ifs
  · rw [names_addRequired, NameTable.knows_enterRequired]
  · rw [names_addOptional, NameTable.knows_enterOptional]

theorem optional_declare (d : Declaration) (kind : NameKind) (n : String) :
    ((tables.declare d).names kind).optional.get? n =
      ((tables.names kind).optional.get? n).or
        (if d.isRequired = false ∧ d.switch.nameOf kind = some n ∧
            (tables.names kind).knows n = false then some d.switch else none) := by
  unfold declare
  cases hd : d.isRequired with
  | true => simp [names_addRequired, NameTable.optional_enterRequired]
  | false => simp [names_addOptional, NameTable.optional_enterOptional]

/-- Optional switches stand under names of theirs. -/
def Keyed (tables : SwitchTables) : Prop :=
  ∀ kind name switch, (tables.names kind).optional.get? name = some switch →
    switch.nameOf kind = some name

/-! ## All declarations, one after the other -/

theorem find?_foldl_declare (sound : tables.Sound) (ds : List Declaration) (kind : NameKind)
    (n : String) :
    (ds.foldl declare tables).find? kind n =
      (tables.find? kind n).or ((Declaration.nearest? ds kind n).map Declaration.switch) := by
  induction ds generalizing tables with
  | nil => simp [Declaration.nearest?]
  | cons d ds ih =>
      rw [List.foldl_cons, ih (sound.declare d), find?_declare sound, Option.or_assoc]
      congr 1
      by_cases hname : d.switch.nameOf kind = some n
      · simp [Declaration.nearest?, hname]
      · simp [Declaration.nearest?, hname]

/-- An optional switch is entered under a new name if it is the first of the list that has it. -/
theorem optional_foldl_declare (ds : List Declaration) (kind : NameKind) (n : String) :
    ((ds.foldl declare tables).names kind).optional.get? n =
      if (tables.names kind).knows n then (tables.names kind).optional.get? n
      else (Declaration.nearest? ds kind n).bind fun d =>
        if d.isRequired then none else some d.switch := by
  induction ds generalizing tables with
  | nil =>
      cases hknown : (tables.names kind).knows n with
      | true => simp
      | false => simp [Declaration.nearest?, NameTable.optional_eq_none hknown]
  | cons d ds ih =>
      rw [List.foldl_cons, ih, knows_declare, optional_declare]
      cases hknown : (tables.names kind).knows n with
      | true => simp
      | false =>
          have hnone := NameTable.optional_eq_none hknown
          by_cases hname : d.switch.nameOf kind = some n
          · cases hd : d.isRequired <;> simp [Declaration.nearest?, hname, hnone, hd]
          · simp [Declaration.nearest?, hname]

theorem required_foldl_declare (ds : List Declaration) :
    (ds.foldl declare tables).required =
      tables.required ++ (ds.filter Declaration.isRequired).map Declaration.switch := by
  induction ds generalizing tables with
  | nil => simp
  | cons d ds ih =>
      rw [List.foldl_cons, ih, required_declare]
      cases hd : d.isRequired <;> simp [hd]

theorem addSets_eq (required optional : Switches) :
    tables.addSets required optional =
      (Declaration.ofSets required optional).foldl declare tables := by
  rw [addSets, Declaration.ofSets, List.foldl_append, List.foldl_map, List.foldl_map]
  rfl

end SwitchTables

namespace CommandTree

variable (t : CommandTree) (id : ItemId)

theorem addOwn_eq (tables : SwitchTables) :
    t.addOwn tables id = (t.ownDeclarations id).foldl SwitchTables.declare tables := by
  unfold addOwn ownDeclarations
  cases t.get? id with
  | none => rfl
  | some item => exact SwitchTables.addSets_eq item.required item.optional

theorem addCommon_eq (tables : SwitchTables) :
    t.addCommon tables id = (t.commonDeclarations id).foldl SwitchTables.declare tables := by
  unfold addCommon commonDeclarations
  cases t.branch? id with
  | none => rfl
  | some b => exact SwitchTables.addSets_eq b.commonRequired b.commonOptional

/-- The tables are made from the list of everything that counts. -/
theorem switchTables_eq :
    t.switchTables id = (t.reachable id).foldl SwitchTables.declare {} := by
  have hcommon : t.addCommon = fun tables a =>
      (t.commonDeclarations a).foldl SwitchTables.declare tables := by
    funext tables a
    exact t.addCommon_eq a tables
  unfold switchTables reachable declared
  rw [List.foldl_append, List.foldl_append, List.foldl_append, List.foldl_flatMap, hcommon,
    addOwn_eq, ← map_impliedSwitches, List.foldl_map, ← verbOf?_eq]
  cases t.verbOf? id with
  | none => rfl
  | some verb =>
      dsimp only
      rw [addOwn_eq]
      rfl

/-- The nearest declaration of a name decides about it. -/
theorem find?_switchTables (kind : NameKind) (n : String) :
    (t.switchTables id).find? kind n =
      (Declaration.nearest? (t.reachable id) kind n).map Declaration.switch := by
  rw [switchTables_eq, SwitchTables.find?_foldl_declare SwitchTables.sound_empty]
  cases kind <;> rfl

variable {t id} in
/-- Just the names that something declares are found. -/
theorem declares_iff_find? {kind : NameKind} {name : String} :
    Declaration.Declares (t.reachable id) kind name ↔
      ∃ switch, (t.switchTables id).find? kind name = some switch := by
  simp [← Declaration.exists_nearest?_iff, find?_switchTables]

/-- An optional switch stands under the names that it decides about. -/
theorem optional_switchTables (kind : NameKind) (n : String) (s : Switch) :
    ((t.switchTables id).names kind).optional.get? n = some s ↔
      Declaration.nearest? (t.reachable id) kind n = some ⟨s, false⟩ := by
  have hunknown : (({} : SwitchTables).names kind).knows n = false := by cases kind <;> rfl
  rw [switchTables_eq, SwitchTables.optional_foldl_declare, hunknown, if_neg Bool.false_ne_true]
  cases hnearest : Declaration.nearest? (t.reachable id) kind n with
  | none => simp
  | some d =>
      obtain ⟨switch, isRequired⟩ := d
      cases isRequired <;> simp

theorem keyed_switchTables : (t.switchTables id).Keyed := fun kind name switch h =>
  Declaration.nameOf_of_nearest? ((t.optional_switchTables id kind name switch).mp h)

theorem required_switchTables :
    (t.switchTables id).required =
      ((t.reachable id).filter Declaration.isRequired).map Declaration.switch := by
  rw [switchTables_eq, SwitchTables.required_foldl_declare]
  rfl

end CommandTree
end CommandRoutes
