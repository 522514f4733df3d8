import CommandRoutes.Table.Registration
import CommandRoutes.Proofs.Route.Grammar
import CommandRoutes.Proofs.Tree.Ensuring

/-!
# What a table binds

Registering an entry of a table finds or makes the item at the end of its path, and
all that is done to the tree besides are edits. So the path leads to that item from
then on, whatever is registered later, and a handler that is bound there stays with
the paths that lead there. In the dispatcher of a table the callbacks of an item are
the echoes of the handlers that the table gives to paths of the item, in their order.
-/
namespace CommandRoutes

/-! ## Steps that may fail -/

section
variable {ε α β : Type}

theorem exists_of_bind_eq_ok {result : Except ε α} {next : α → Except ε β} {b : β}
    (h : result >>= next = .ok b) : ∃ a, result = .ok a ∧ next a = .ok b := by
  cases result with
  | error e => cases h
  | ok a => exact ⟨a, rfl, h⟩

/-- What every step keeps, while it takes one more entry, holds after all of them. -/
theorem foldlM_invariant {step : β → α → Except ε β} {P : List α → β → Prop}
    (hstep : ∀ {done a b b'}, P done b → step b a = .ok b' → P (done ++ [a]) b')
    {entries : List α} (done : List α) {b b' : β} (start : P done b)
    (h : entries.foldlM step b = .ok b') : P (done ++ entries) b' := by
  induction entries generalizing done b with
  | nil =>
      cases h
      rw [List.append_nil]
      exact start
  | cons a rest ih =>
      rw [List.foldlM_cons] at h
      obtain ⟨next, hnext, hrest⟩ := exists_of_bind_eq_ok h
      have hall := ih _ (hstep start hnext) hrest
      rw [List.append_assoc] at hall
      exact hall

end

namespace CommandTree
variable {t t' : CommandTree}

/-! ## The item of an entry -/

theorem edits_giveAliases {items : List ItemId} {aliases : List String}
    (h : t.giveAliases items aliases = .ok t') : Edits t t' := by
  unfold giveAliases at h
  split at h
  · cases h
    exact .refl
  · split at h
    · cases h
    · next anchor _ =>
      refine foldlM_invariant (P := fun _ => Edits t) ?_ [] .refl h
      intro _ aliasName b b' edits hstep
      obtain ⟨_, _, rfl⟩ := exists_of_map_eq_ok hstep
      exact edits.trans (b.edits_giveAlias anchor aliasName)

theorem edits_addEntries {add : CommandTree → Switch → Grown Unit}
    (hadd : ∀ t switch, Edits t (add t switch).tree) {entries : List SwitchEntry}
    (h : t.addEntries add entries = .ok t') : Edits t t' := by
  refine foldlM_invariant (P := fun _ => Edits t) ?_ [] .refl h
  intro _ e b b' edits hstep
  obtain ⟨switch, _, hstep⟩ := exists_of_bind_eq_ok hstep
  obtain ⟨_, _, rfl⟩ := exists_of_map_eq_ok hstep
  exact edits.trans (hadd b switch)

/-- The path of an entry is registered first, and then its last item is edited. -/
theorem exists_of_addEntry {e : RouteEntry} {item : ItemId} (h : t.addEntry e = .ok (t', item)) :
    ∃ ids, (t.ensureRoute e.path).result = .ok ids ∧ ids.getLast?.getD rootId = item ∧
      Edits (t.ensureRoute e.path).tree t' := by
  unfold addEntry at h
  obtain ⟨ids, hids, h⟩ := exists_of_bind_eq_ok h
  obtain ⟨t₁, haliases, h⟩ := exists_of_bind_eq_ok h
  obtain ⟨t₂, hrequired, h⟩ := exists_of_bind_eq_ok h
  obtain ⟨t₃, hoptional, h⟩ := exists_of_bind_eq_ok h
  obtain ⟨t₄, hcommonRequired, h⟩ := exists_of_bind_eq_ok h
  obtain ⟨t₅, hcommonOptional, h⟩ := exists_of_bind_eq_ok h
  cases h
  generalize hitem : ids.getLast?.getD rootId = item at *
  have required := edits_addEntries (fun t s => t.edits_perform (.required item s)) hrequired
  have optional := edits_addEntries (fun t s => t.edits_perform (.optional item s)) hoptional
  have commonRequired :=
    edits_addEntries (fun t s => t.edits_perform (.commonRequired item s)) hcommonRequired
  have commonOptional :=
    edits_addEntries (fun t s => t.edits_perform (.commonOptional item s)) hcommonOptional
  have switched := (required.trans optional).trans (commonRequired.trans commonOptional)
  refine ⟨ids, hids, hitem, (edits_giveAliases haliases).trans (.trans ?_ switched)⟩
  cases e.description with
  | none =>
      split_ifs
      · exact t₁.edits_perform (.privacy item true)
      · exact .refl
  | some text =>
      have described := t₁.edits_perform (.description item text)
      split_ifs
      · exact described.trans (edits_perform _ (.privacy item true))
      · exact described

/-! ## Paths that stand -/

/-- The segments of the path stand one below the other, and the last of them is the item. -/
def EndsAt (t : CommandTree) (path : String) (id : ItemId) : Prop :=
  ∃ segments ids, Route.read path = .ok segments ∧ Chain t rootId segments ids ∧
    ids.getLast?.getD rootId = id

/-- The path, registered in this tree, is answered with the item. -/
def Denotes (t : CommandTree) (path : String) (id : ItemId) : Prop :=
  (t.ensureLeaf path).result = .ok id

instance (path : String) (id : ItemId) : Decidable (t.Denotes path id) :=
  inferInstanceAs (Decidable (_ = _))

theorem Chain.mono {parent : ItemId} {segments : List Segment} {ids : List ItemId}
    (h : Chain t parent segments ids) (ext : t.Extends t') : Chain t' parent segments ids := by
  induction h with
  | nil => exact .nil
  | cons stands _ ih => exact .cons (ext.standsAt stands) ih

namespace EndsAt
variable {path : String} {id : ItemId}

theorem mono (h : t.EndsAt path id) (ext : t.Extends t') : t'.EndsAt path id := by
  obtain ⟨segments, ids, hread, chain, hlast⟩ := h
  exact ⟨segments, ids, hread, chain.mono ext, hlast⟩

/-- What stands is denoted, and nothing else is. -/
theorem denotes_iff (h : t.EndsAt path id) (w : t.WellFormed) {i : ItemId} :
    t.Denotes path i ↔ i = id := by
  obtain ⟨segments, ids, hread, chain, hlast⟩ := h
  have named := (Route.registrable_of_read hread).named
  have hanswer : (t.ensureLeaf path).result = .ok id := by
    rw [ensureLeaf, t.ensureRoute_of_read hread, chain.ensureSegments w named, ← hlast]
    rfl
  rw [Denotes, hanswer, Except.ok.injEq, eq_comm]

end EndsAt

theorem WellFormed.endsAt_of_ensureRoute (w : t.WellFormed) {path : String} {ids : List ItemId}
    (h : (t.ensureRoute path).result = .ok ids) :
    (t.ensureRoute path).tree.EndsAt path (ids.getLast?.getD rootId) := by
  cases hread : Route.read path with
  | error e =>
      rw [ensureRoute, hread] at h
      cases h
  | ok segments =>
      rw [t.ensureRoute_of_read hread] at h ⊢
      exact ⟨segments, ids, hread, w.chain_of_ensureSegments h, rfl⟩

/-- The handlers that entries give to an item, in the order of the entries. -/
def handlersOf (t : CommandTree) (id : ItemId) (entries : List RouteEntry) : List String :=
  (entries.filter fun e => t.Denotes e.path id).filterMap RouteEntry.handler

theorem handlersOf_append (t : CommandTree) (id : ItemId) (entries later : List RouteEntry) :
    t.handlersOf id (entries ++ later) = t.handlersOf id entries ++ t.handlersOf id later := by
  unfold handlersOf
  rw [List.filter_append, List.filterMap_append]

theorem EndsAt.handlersOf_singleton {e : RouteEntry} {item : ItemId} (h : t.EndsAt e.path item)
    (w : t.WellFormed) (id : ItemId) :
    t.handlersOf id [e] = if item = id then e.handler.toList else [] := by
  have hdenotes := h.denotes_iff w (i := id)
  unfold handlersOf
  by_cases hid : item = id
  · rw [if_pos hid, List.filter_cons_of_pos (by simpa using hdenotes.mpr hid.symm)]
    cases hhandler : e.handler <;> simp [hhandler]
  · rw [if_neg hid, List.filter_cons_of_neg (by simpa using mt hdenotes.mp (Ne.symm hid))]
    rfl

end CommandTree

/-! ## The callbacks of a table -/

namespace Dispatcher
variable {m : Type → Type} [Monad m]

/-- A dispatcher as these entries make it. -/
structure Serves (entries : List RouteEntry) (d : Dispatcher m) : Prop where
  wellFormed : d.tree.WellFormed
  hooks_eq : d.hooks = []
  endsAt : ∀ e ∈ entries, ∃ id, d.tree.EndsAt e.path id
  callbacksOf_eq : ∀ id, d.callbacksOf id = (d.tree.handlersOf id entries).map Callback.echo

/-- An entry leaves a tree, and at its item an echo if it has a handler. -/
theorem exists_of_addEntry {d d' : Dispatcher m} {e : RouteEntry} (h : d.addEntry e = .ok d') :
    ∃ tree item, d.tree.addEntry e = .ok (tree, item) ∧ d' =
      { d with
        tree
        callbacks := d.callbacks ++ e.handler.toList.map fun handler => (item, .echo handler) } := by
  obtain ⟨⟨tree, item⟩, hentry, rfl⟩ := exists_of_map_eq_ok h
  refine ⟨tree, item, hentry, ?_⟩
  cases e.handler with
  | none => simp
  | some handler => rfl

namespace Serves
variable {entries : List RouteEntry} {d d' : Dispatcher m}

/-- What an item has been given already it keeps. -/
theorem handlersOf_eq (h : Serves entries d) {t : CommandTree} (w : t.WellFormed)
    (ext : d.tree.Extends t) (id : ItemId) :
    t.handlersOf id entries = d.tree.handlersOf id entries := by
  unfold CommandTree.handlersOf
  congr 1
  apply List.filter_congr
  intro e he
  obtain ⟨own, hown⟩ := h.endsAt e he
  rw [decide_eq_decide, hown.denotes_iff h.wellFormed, (hown.mono ext).denotes_iff w]

theorem addEntry (h : Serves entries d) {e : RouteEntry} (hadd : d.addEntry e = .ok d') :
    Serves (entries ++ [e]) d' := by
  obtain ⟨t, item, hentry, rfl⟩ := exists_of_addEntry hadd
  obtain ⟨ids, hids, hitem, edits⟩ := CommandTree.exists_of_addEntry hentry
  have route := d.tree.edits_ensureRoute e.path
  have w := h.wellFormed.edits (route.trans edits)
  have ext := CommandTree.Extends.of_edits (route.trans edits)
  have ends := (h.wellFormed.endsAt_of_ensureRoute hids).mono (.of_edits edits)
  rw [hitem] at ends
  constructor
  · exact w
  · exact h.hooks_eq
  · intro e' he'
    rcases List.mem_append.mp he' with hold | hnew
    · obtain ⟨own, hown⟩ := h.endsAt e' hold
      exact ⟨own, hown.mono ext⟩
    · rw [List.mem_singleton.mp hnew]
      exact ⟨item, ends⟩
  · intro id
    rw [CommandTree.handlersOf_append, h.handlersOf_eq w ext, ends.handlersOf_singleton w,
      List.map_append, ← h.callbacksOf_eq]
    unfold callbacksOf
    rw [List.filter_append, List.map_append]
    congr 1
    by_cases hid : item = id
    · cases e.handler <;> simp [hid]
    · cases e.handler <;> simp [hid]

end Serves

end Dispatcher
end CommandRoutes
