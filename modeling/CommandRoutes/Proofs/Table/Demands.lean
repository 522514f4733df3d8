import CommandRoutes.Table.Registration
import CommandRoutes.Proofs.Tree.Address

/-!
# What the routes of a table demand

A route of a table demands items at certain addresses, aliases of static items,
and common switches on items, and what it demands is settled by its entry alone.
Some demands cannot be met by any tree, and some clash: two children for one
slot, one token for two children, one name for two common switches on a path.
Clashing is symmetric, so whether all demands of a table are at peace does not
depend on the order of its routes.
-/
namespace CommandRoutes

def Segment.staticName? : Segment → Option String
  | static name => some name
  | _ => none

inductive Demand
  /-- An item below the item at the address `above`. -/
  | item (above : List Step) (step : Step)
  /-- The static item of this name answers to the token, as its alias. -/
  | answer (above : List Step) (name token : String)
  /-- A common switch with these names on the item at the address `place`. -/
  | common (place : List Step) (names : List String)
  /-- What no tree can meet. -/
  | impossible

namespace Demand

/-- No tree meets both demands. -/
def Clash : Demand → Demand → Prop
  | item above step, item above' step' =>
      above = above' ∧ step.slot ≠ .switchItem ∧ step.slot = step'.slot ∧ step.name ≠ step'.name
  | item above step, answer above' _ token => above = above' ∧ step.slot = .static token
  | answer above _ token, item above' step => above = above' ∧ step.slot = .static token
  | answer above name token, answer above' name' token' =>
      above = above' ∧ token = token' ∧ name ≠ name'
  | common place names, common place' names' =>
      (place <+: place' ∨ place' <+: place) ∧ ¬names.Disjoint names'
  | _, _ => False

theorem Clash.symm {d d' : Demand} (h : d.Clash d') : d'.Clash d := by
  cases d with
  | item above step =>
      cases d' with
      | item above' step' => exact ⟨h.1.symm, h.2.2.1 ▸ h.2.1, h.2.2.1.symm, h.2.2.2.symm⟩
      | answer above' name token => exact ⟨h.1.symm, h.2⟩
      | common place names => exact h
      | impossible => exact h
  | answer above name token =>
      cases d' with
      | item above' step => exact ⟨h.1.symm, h.2⟩
      | answer above' name' token' => exact ⟨h.1.symm, h.2.1.symm, h.2.2.symm⟩
      | common place names => exact h
      | impossible => exact h
  | common place names =>
      cases d' with
      | item above step => exact h
      | answer above name token => exact h
      | common place' names' => exact ⟨h.1.symm, fun hd => h.2 (List.disjoint_symm hd)⟩
      | impossible => exact h
  | impossible => cases d' <;> exact h

/-- Each demand can be met by itself, and no two of them clash. -/
structure Peaceful (ds : List Demand) : Prop where
  possible : impossible ∉ ds
  apart : ds.Pairwise fun d d' => ¬d.Clash d'

namespace Peaceful
variable {ds ds' : List Demand}

theorem nil : Peaceful [] := ⟨by simp, .nil⟩

theorem left (h : Peaceful (ds ++ ds')) : Peaceful ds where
  possible hmem := h.possible (List.mem_append_left _ hmem)
  apart := (List.pairwise_append.mp h.apart).1

theorem concat_iff {d : Demand} (h : Peaceful ds) :
    Peaceful (ds ++ [d]) ↔ d ≠ impossible ∧ ∀ d' ∈ ds, ¬d'.Clash d := by
  constructor
  · intro hd
    refine ⟨fun heq => hd.possible (by simp [heq]), fun d' hd' => ?_⟩
    exact (List.pairwise_append.mp hd.apart).2.2 d' hd' d (List.mem_singleton_self d)
  · rintro ⟨hne, free⟩
    refine ⟨?_, List.pairwise_append.mpr ⟨h.apart, List.pairwise_singleton .., ?_⟩⟩
    · simp [h.possible, hne.symm]
    · simpa using free

/-- Peace does not depend on the order of the demands. -/
theorem perm (hperm : ds.Perm ds') : Peaceful ds ↔ Peaceful ds' := by
  have hapart := hperm.pairwise_iff (R := fun d d' : Demand => ¬d.Clash d')
    fun h h' => h h'.symm
  constructor
  · exact fun h => ⟨fun hmem => h.possible (hperm.mem_iff.mpr hmem), hapart.mp h.apart⟩
  · exact fun h => ⟨fun hmem => h.possible (hperm.mem_iff.mp hmem), hapart.mpr h.apart⟩

end Peaceful

/-! ## The demands of an entry -/

/-- An item for each segment, from the address `above` on. -/
def along (above : List Step) : List Segment → List Demand
  | [] => []
  | s :: rest => .item above s.step :: along (above ++ [s.step]) rest

/-- The last static segment: the address it stands below, and its name. -/
def anchor? (above : List Step) : List Segment → Option (List Step × String)
  | [] => none
  | s :: rest =>
      (anchor? (above ++ [s.step]) rest).or (s.staticName?.map fun name => (above, name))

/-- A static item need not be given its own name. -/
def ofAlias (anchor : Option (List Step × String)) (aliasName : String) : List Demand :=
  match anchor with
  | none => [.impossible]
  | some (above, name) =>
      match CommandTree.checkName aliasName with
      | .error _ => [.impossible]
      | .ok _ => if aliasName = name then [] else [.answer above name aliasName]

/-- A switch must be well-formed, whatever it is used for. -/
def ofSwitch (demands : Switch → List Demand) (e : SwitchEntry) : List Demand :=
  match e.switch with
  | .ok switch => demands switch
  | .error _ => [.impossible]

/-- Spread and switch items have no common switches. -/
def ofCommon (segments : List Segment) (switch : Switch) : Demand :=
  if segments.getLast?.any Segment.endsRoute then .impossible
  else .common (segments.map Segment.step) switch.names

end Demand

/-- What the entry demands of any tree that it is registered in. -/
def RouteEntry.demands (e : RouteEntry) : List Demand :=
  match Route.read e.path with
  | .error _ => [.impossible]
  | .ok segments =>
      Demand.along [] segments ++
        e.aliases.flatMap (Demand.ofAlias (Demand.anchor? [] segments)) ++
        e.switches.required.flatMap (Demand.ofSwitch fun _ => []) ++
        e.switches.optional.flatMap (Demand.ofSwitch fun _ => []) ++
        e.switches.commonRequired.flatMap (Demand.ofSwitch fun s => [.ofCommon segments s]) ++
        e.switches.commonOptional.flatMap (Demand.ofSwitch fun s => [.ofCommon segments s])

end CommandRoutes
