import CommandRoutes.Proofs.Tree.Shape
import CommandRoutes.Verification
import Mathlib.Tactic.SplitIfs

/-!
# The switches that count at an item

The switches that count at an item form one list, nearest first: its own, for a
switch item those of its parent, the common switches of the branches from the
item up to the root, and an optional switch for each id that a predicate of the
branch asks about, if a switch can have the id as its name. The first switch of
the list that has a name is the nearest one of this name.

The list is read off slots, parents and predicates. Verification gathers the same
switches in its own way, from the kinds of the items.
-/
namespace CommandRoutes

/-- A switch that counts somewhere, as a required or as an optional one. -/
structure Declaration where
  switch : Switch
  isRequired : Bool
  deriving DecidableEq

namespace Declaration

def ofSets (required optional : Switches) : List Declaration :=
  required.toList.map (⟨·, true⟩) ++ optional.toList.map (⟨·, false⟩)

/-- The nearest declaration of a name. -/
def nearest? (ds : List Declaration) (kind : NameKind) (name : String) : Option Declaration :=
  ds.find? fun d => d.switch.nameOf kind = some name

/-- Some switch of the list has this name. -/
def Declares (ds : List Declaration) (kind : NameKind) (name : String) : Prop :=
  ∃ d ∈ ds, d.switch.nameOf kind = some name

instance (ds : List Declaration) (kind : NameKind) (name : String) :
    Decidable (Declares ds kind name) :=
  inferInstanceAs (Decidable (∃ d ∈ ds, d.switch.nameOf kind = some name))

end Declaration

/-! ## Names that can be declared -/

namespace NameKind

/-- Whether a switch can have this name. -/
def admits : NameKind → String → Bool
  | short => isShortName
  | long => isLongName

theorem admits_of_nameOf {switch : Switch} {kind : NameKind} {name : String}
    (h : switch.nameOf kind = some name) : kind.admits name = true := by
  cases kind with
  | short => exact switch.short_wellFormed name h
  | long => exact switch.long_wellFormed name h

/-- No text is a name of both kinds. -/
theorem eq_of_admits {kind kind' : NameKind} {name : String} (h : kind.admits name = true)
    (h' : kind'.admits name = true) : kind = kind' := by
  have apart : isShortName name = true → isLongName name = true → False := by
    unfold isShortName isLongName
    match name.toList with
    | [] => simp
    | [_] => simp
    | _ :: _ :: _ => simp
  cases kind <;> cases kind'
  · rfl
  · exact (apart h h').elim
  · exact (apart h' h).elim
  · rfl

/-- The kind of name that an id would be. -/
def ofId (id : String) : NameKind := if id.length = 1 then short else long

theorem kind_ofId_of_admits {kind : NameKind} {id : String} (h : kind.admits id = true) :
    kind = ofId id := by
  have hlength : id.length = id.toList.length := rfl
  cases kind with
  | short =>
      change isShortName id = true at h
      unfold isShortName at h
      split at h
      · next c heq => simp [ofId, hlength, heq]
      · cases h
  | long =>
      change isLongName id = true at h
      unfold isLongName at h
      split at h
      · next c d rest heq => simp [ofId, hlength, heq]
      · cases h

end NameKind

namespace Declaration
variable {ds : List Declaration} {kind : NameKind} {name : String} {d : Declaration}

theorem nameOf_of_nearest? (h : nearest? ds kind name = some d) :
    d.switch.nameOf kind = some name :=
  of_decide_eq_true (List.find?_some h :)

theorem admits_of_nearest? (h : nearest? ds kind name = some d) : kind.admits name = true :=
  NameKind.admits_of_nameOf (nameOf_of_nearest? h)

theorem mem_of_nearest? (h : nearest? ds kind name = some d) : d ∈ ds :=
  List.mem_of_find?_eq_some h

/-- A name has a nearest declaration just if something declares it. -/
theorem exists_nearest?_iff : (∃ d, nearest? ds kind name = some d) ↔ Declares ds kind name := by
  simp only [nearest?, ← Option.isSome_iff_exists, List.find?_isSome, decide_eq_true_eq]
  rfl

theorem nearest?_eq_none_iff : nearest? ds kind name = none ↔ ¬Declares ds kind name := by
  rw [← exists_nearest?_iff, ← Option.isSome_iff_exists, Option.not_isSome_iff_eq_none]

end Declaration

/-! ## Ids as names -/

/-- The switch that has this name and no other. -/
def Switch.only : (kind : NameKind) → (name : String) → kind.admits name = true → Switch
  | .short, name, h =>
    { short := some name, long := none, named := rfl,
      short_wellFormed := fun _ hname => Option.some.inj hname ▸ h, long_wellFormed := by simp }
  | .long, name, h =>
    { short := none, long := some name, named := rfl, short_wellFormed := by simp,
      long_wellFormed := fun _ hname => Option.some.inj hname ▸ h }

theorem Switch.nameOf_only {kind : NameKind} {name : String} (h : kind.admits name = true)
    (kind' : NameKind) :
    (only kind name h).nameOf kind' = if kind' = kind then some name else none := by
  cases kind <;> cases kind' <;> rfl

namespace Declaration
variable {id : String}

/-- The optional switch that has this id as its only name, if a switch can have it. -/
def ofId? (id : String) : Option Declaration :=
  if h : NameKind.short.admits id then some ⟨.only .short id h, false⟩
  else if h : NameKind.long.admits id then some ⟨.only .long id h, false⟩
  else none

theorem ofId?_of_admits {kind : NameKind} (h : kind.admits id = true) :
    ofId? id = some ⟨.only kind id h, false⟩ := by
  unfold ofId?
  cases kind with
  | short => rw [dif_pos h]
  | long =>
      have hshort : ¬NameKind.short.admits id = true := fun hshort =>
        nomatch NameKind.eq_of_admits hshort h
      rw [dif_neg hshort, dif_pos h]

theorem ofId?_eq_none (h : (NameKind.ofId id).admits id = false) : ofId? id = none := by
  have unnamed : ∀ kind : NameKind, ¬kind.admits id = true := by
    intro kind hkind
    rw [← NameKind.kind_ofId_of_admits hkind, hkind] at h
    cases h
  rw [ofId?, dif_neg (unnamed .short), dif_neg (unnamed .long)]

/-- What an id declares is optional and has no other name. -/
theorem of_ofId? {d : Declaration} (h : ofId? id = some d) :
    d.isRequired = false ∧
      ∀ kind name, d.switch.nameOf kind = some name → kind = .ofId id ∧ name = id := by
  cases hadmits : (NameKind.ofId id).admits id with
  | false =>
      rw [ofId?_eq_none hadmits] at h
      cases h
  | true =>
      rw [ofId?_of_admits hadmits] at h
      obtain rfl := Option.some.inj h
      refine ⟨rfl, fun kind name hname => ?_⟩
      rw [Switch.nameOf_only] at hname
      split_ifs at hname with hkind
      exact ⟨hkind, (Option.some.inj hname).symm⟩

end Declaration

namespace Predicate
variable {p : Predicate}

theorem impliedSwitch?_of_admits {kind : NameKind} (h : kind.admits p.id = true) :
    p.impliedSwitch? = some (.only kind p.id h) := by
  have hkind := NameKind.kind_ofId_of_admits h
  unfold NameKind.ofId at hkind
  unfold impliedSwitch?
  cases kind with
  | short =>
      have hname : isShortName p.id = true := h
      split_ifs at hkind ⊢
      simp [Switch.new?, hname, Except.toOption, Switch.only]
  | long =>
      have hname : isLongName p.id = true := h
      split_ifs at hkind ⊢
      simp [Switch.new?, hname, Except.toOption, Switch.only]

theorem impliedSwitch?_eq_none (h : (NameKind.ofId p.id).admits p.id = false) :
    p.impliedSwitch? = none := by
  unfold impliedSwitch?
  unfold NameKind.ofId at h
  split_ifs at h ⊢
  · have hname : isShortName p.id = false := h
    simp [Switch.new?, hname, Except.toOption]
  · have hname : isLongName p.id = false := h
    simp [Switch.new?, hname, Except.toOption]

/-- Verification tells the kind of an id by its length alone. -/
theorem map_impliedSwitch? (p : Predicate) :
    p.impliedSwitch?.map (⟨·, false⟩) = Declaration.ofId? p.id := by
  cases hadmits : (NameKind.ofId p.id).admits p.id with
  | false =>
      rw [impliedSwitch?_eq_none hadmits, Declaration.ofId?_eq_none hadmits]
      rfl
  | true =>
      rw [impliedSwitch?_of_admits hadmits, Declaration.ofId?_of_admits hadmits]
      rfl

end Predicate

/-! ## What is declared for an item -/

namespace CommandTree

def ownDeclarations (t : CommandTree) (id : ItemId) : List Declaration :=
  ((t.get? id).map fun item => Declaration.ofSets item.required item.optional).getD []

def commonDeclarations (t : CommandTree) (id : ItemId) : List Declaration :=
  ((t.branch? id).map fun b => Declaration.ofSets b.commonRequired b.commonOptional).getD []

/-- The parent of a switch item. -/
def holder? (t : CommandTree) (id : ItemId) : Option ItemId :=
  if t.slot? id = some .switchItem then t.parent? id else none

/-- The switches declared for an item, without those that predicates ask about. -/
def declared (t : CommandTree) (id : ItemId) : List Declaration :=
  t.ownDeclarations id ++ ((t.holder? id).map t.ownDeclarations).getD [] ++
  (t.ancestry id).flatMap t.commonDeclarations

/-- The ids that the switch items of a branch ask about, one for each predicate. -/
def askedIds (t : CommandTree) (branch : ItemId) : List String :=
  (t.occupants branch .switchItem).flatMap fun item =>
    ((t.predicates? item).getD []).map Predicate.id

/-- The switches that count at an item, nearest first. -/
def reachable (t : CommandTree) (id : ItemId) : List Declaration :=
  t.declared id ++ (t.askedIds ((t.holder? id).getD id)).filterMap Declaration.ofId?

theorem holder?_of_branch? {t : CommandTree} {id : ItemId} {b : Branch}
    (hb : t.branch? id = some b) : t.holder? id = none :=
  if_neg (exists_branch_iff.mp ⟨b, hb⟩).2.2

/-! ## What verification gathers -/

theorem verbOf?_eq (t : CommandTree) (id : ItemId) : t.verbOf? id = t.holder? id := by
  unfold verbOf? holder? slot? parent?
  cases t.get? id with
  | none => rfl
  | some item =>
      rcases item with ⟨name, parent, kind, description, isPrivate, required, optional⟩
      cases kind <;> rfl

theorem map_impliedSwitches (t : CommandTree) (branch : ItemId) :
    (t.impliedSwitches branch).map (⟨·, false⟩) =
      (t.askedIds branch).filterMap Declaration.ofId? := by
  have hask : Declaration.ofId? ∘ Predicate.id = fun p => p.impliedSwitch?.map (⟨·, false⟩) :=
    funext fun p => p.map_impliedSwitch?.symm
  unfold impliedSwitches askedIds occupants
  cases t.branch? branch with
  | none => rfl
  | some b =>
      dsimp only
      rw [← List.map_flatMap, List.filterMap_map, hask, List.map_filterMap]
      rfl

end CommandTree
end CommandRoutes
