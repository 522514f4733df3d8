import CommandRoutes.Dispatcher
import CommandRoutes.Proofs.Tree.Growing

/-!
# Registering at a dispatcher

A dispatcher is filled by calls that change its tree, by registering routes
together with callbacks, by binding callbacks to items and by adding hooks. The
tree of a dispatcher filled in this way is a reachable one. Options play no part
in it.
-/
namespace CommandRoutes.Dispatcher

variable {m : Type → Type}

/-- The calls that fill a dispatcher. -/
inductive Call (m : Type → Type)
  | change (c : CommandTree.Change)
  | on (route : String) (callback : Callback m)
  | bind (item : ItemId) (callback : Callback m)
  | hook (hook : Hook m)

/-- Makes a call and says whether it failed. -/
def perform (d : Dispatcher m) : Call m → Except Fault Unit × Dispatcher m
  | .change c => ((d.tree.perform c).result, { d with tree := (d.tree.perform c).tree })
  | .on route callback =>
      ((d.register route callback).1.map fun _ => (), (d.register route callback).2)
  | .bind item callback => (.ok (), d.withCallback item callback)
  | .hook hook => (.ok (), d.withHook hook)

/-- The dispatchers that calls lead to from an empty one. -/
inductive Reachable : Dispatcher m → Prop
  | empty (options : Options) : Reachable { options }
  | perform {d : Dispatcher m} (c : Call m) : Reachable d → Reachable (d.perform c).2

theorem register_cases (d : Dispatcher m) (route : String) (callback : Callback m) :
    (∃ e, (d.tree.ensureLeaf route).result = .error e ∧
      d.register route callback = (.error e, { d with tree := (d.tree.ensureLeaf route).tree })) ∨
    ∃ item, (d.tree.ensureLeaf route).result = .ok item ∧
      d.register route callback =
        (.ok item, { d with tree := (d.tree.ensureLeaf route).tree }.withCallback item callback) := by
  unfold register
  dsimp only
  cases (d.tree.ensureLeaf route).result with
  | error e => exact .inl ⟨e, rfl, rfl⟩
  | ok item => exact .inr ⟨item, rfl, rfl⟩

theorem tree_register (d : Dispatcher m) (route : String) (callback : Callback m) :
    (d.register route callback).2.tree = (d.tree.ensureLeaf route).tree := by
  obtain ⟨e, _, h⟩ | ⟨item, _, h⟩ := d.register_cases route callback
  · rw [h]
  · rw [h]
    rfl

theorem Reachable.tree {d : Dispatcher m} (h : d.Reachable) : d.tree.Reachable := by
  induction h with
  | empty options => exact .new
  | @perform d c _ ih =>
      cases c with
      | change c => exact ih.perform c
      | on route callback =>
          change ((d.register route callback).2.tree).Reachable
          rw [tree_register]
          exact ih.perform (.route route)
      | bind item callback => exact ih
      | hook hook => exact ih

end CommandRoutes.Dispatcher
