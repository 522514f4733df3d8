import CommandRoutes.Proofs.Dispatch.Plan

/-!
# Callbacks in a row

A run calls the callbacks in order as long as they go on, and ends behind the
last of them or with the first that stops or fails. The relation `Sequence` says
so without following the run: it names the callbacks that went on with what each
of them merged, so what a callback is shown and what the run comes to are read
off from a list. A run of two lists in a row is a run of the first and, from the
context that it leaves, a run of the second.
-/
namespace CommandRoutes

/-- The same fault of a callback, with `count` further callbacks in front. -/
def Fault.behind (count : Nat) : Fault → Fault
  | .failedCallback item index cause => .failedCallback item (count + index) cause
  | fault => fault

namespace Callback
variable {m : Type → Type}

/-- A callback that has gone on, and what it asked to merge. -/
structure Passed (m : Type → Type) where
  callback : Callback m
  update : Option Context

def Passed.reply (passed : Passed m) : Reply :=
  match passed.update with
  | none => .proceed
  | some update => .merge update

def Passed.extend (context : Context) (passed : Passed m) : Context :=
  match passed.update with
  | none => context
  | some update => context.merge update

theorem Passed.get?_extend (context : Context) (passed : Passed m) (key : String) :
    (passed.extend context).get? key =
      (passed.update.bind (·.get? key)).or (context.get? key) := by
  obtain ⟨callback, update⟩ := passed
  cases update with
  | none => rfl
  | some update => exact context.get?_merge update key

end Callback

open Callback (Passed)
variable {m : Type → Type}

/-- The view behind these callbacks: only the context is another one. -/
def CallView.after (view : CallView) (passed : List (Passed m)) : CallView :=
  { view with context := passed.foldl Passed.extend view.context }

theorem CallView.after_cons (view : CallView) (first : Passed m) (passed : List (Passed m)) :
    view.after (first :: passed) = (view.after [first]).after passed :=
  rfl

/-- Each key has the value of the last update that has the key, or else the value it had. -/
theorem CallView.get?_after (view : CallView) (passed : List (Passed m)) (key : String) :
    (view.after passed).context.get? key =
      (passed.reverse.findSome? fun p => p.update.bind (·.get? key)).or
        (view.context.get? key) := by
  induction passed generalizing view with
  | nil => rfl
  | cons first rest ih =>
      have hfirst : (view.after [first]).context.get? key =
          (first.update.bind (·.get? key)).or (view.context.get? key) :=
        first.get?_extend view.context key
      rw [after_cons, ih, hfirst, List.reverse_cons, List.findSome?_append, Option.or_assoc,
        List.findSome?_singleton]

namespace Callback

/-- The calls of callbacks that go on, each shown what the ones in front of it have left. -/
def calls (item : ItemId) (view : CallView) (passed : List (Passed m)) : List (Event m) :=
  passed.mapIdx fun i p => .called item p.callback (view.after (passed.take i)) (.ok p.reply)

theorem calls_cons (item : ItemId) (view : CallView) (first : Passed m)
    (passed : List (Passed m)) :
    calls item view (first :: passed) =
      .called item first.callback view (.ok first.reply) ::
        calls item (view.after [first]) passed :=
  List.mapIdx_cons

/-- Running these callbacks of an item, the first of them at this position, can come to this
outcome after these events: all go on, or one stops or fails where all in front of it go on. -/
inductive Sequence (item : ItemId) (view : CallView) (index : Nat) :
    List (Callback m) → Except Fault RunOutcome → List (Event m) → Prop
  | completed (passed : List (Passed m)) :
      Sequence item view index (passed.map Passed.callback)
        (.ok (.completed (view.after passed).context)) (calls item view passed)
  | stopped (passed : List (Passed m)) (callback : Callback m) (skipped : List (Callback m)) :
      Sequence item view index (passed.map Passed.callback ++ callback :: skipped) (.ok .stopped)
        (calls item view passed ++ [.called item callback (view.after passed) (.ok .stop)])
  | failed (passed : List (Passed m)) (callback : Callback m) (skipped : List (Callback m))
      (cause : String) :
      Sequence item view index (passed.map Passed.callback ++ callback :: skipped)
        (.error (.failedCallback (view.tree.routeOf view.item) (index + passed.length) cause))
        (calls item view passed ++ [.called item callback (view.after passed) (.error cause)])

variable {item : ItemId} {view : CallView} {index : Nat} {callbacks : List (Callback m)}
  {outcome : Except Fault RunOutcome} {events : List (Event m)}

/-! ## Runs are sequences -/

/-- One more callback in front that goes on. -/
theorem Sequence.cons (first : Passed m)
    (h : Sequence item (view.after [first]) (index + 1) callbacks outcome events) :
    Sequence item view index (first.callback :: callbacks) outcome
      (.called item first.callback view (.ok first.reply) :: events) := by
  cases h with
  | completed passed =>
      rw [← calls_cons]
      exact .completed (first :: passed)
  | stopped passed callback skipped =>
      rw [← List.cons_append, ← List.cons_append, ← calls_cons]
      exact .stopped (first :: passed) callback skipped
  | failed passed callback skipped cause =>
      rw [← List.cons_append, ← List.cons_append, ← calls_cons, Nat.add_right_comm, Nat.add_assoc]
      exact .failed (first :: passed) callback skipped cause

theorem Ran.sequence (h : Ran item view index callbacks outcome events) :
    Sequence item view index callbacks outcome events := by
  induction h with
  | done => exact .completed []
  | @failed view index callback rest cause => exact .failed [] callback rest cause
  | @stopped view index callback rest => exact .stopped [] callback rest
  | @proceeded view index callback rest outcome events _ ih => exact .cons ⟨callback, none⟩ ih
  | @merged view index callback rest update outcome events _ ih =>
      exact .cons ⟨callback, some update⟩ ih

theorem Ran.cons (first : Passed m)
    (h : Ran item (view.after [first]) (index + 1) callbacks outcome events) :
    Ran item view index (first.callback :: callbacks) outcome
      (.called item first.callback view (.ok first.reply) :: events) := by
  obtain ⟨callback, update⟩ := first
  cases update with
  | none => exact .proceeded h
  | some update => exact .merged h

theorem Ran.append (passed : List (Passed m))
    (h : Ran item (view.after passed) (index + passed.length) callbacks outcome events) :
    Ran item view index (passed.map Passed.callback ++ callbacks) outcome
      (calls item view passed ++ events) := by
  induction passed generalizing view index with
  | nil => exact h
  | cons first rest ih =>
      rw [List.length_cons, ← Nat.add_assoc, Nat.add_right_comm] at h
      rw [calls_cons]
      exact .cons first (ih h)

theorem Sequence.ran (h : Sequence item view index callbacks outcome events) :
    Ran item view index callbacks outcome events := by
  cases h with
  | completed passed =>
      have hdone : Ran item (view.after passed) (index + passed.length) ([] : List (Callback m))
          (.ok (.completed (view.after passed).context)) [] := .done
      simpa only [List.append_nil] using Ran.append passed hdone
  | stopped passed callback skipped => exact .append passed .stopped
  | failed passed callback skipped cause => exact .append passed .failed

/-! ## Runs in a row -/

section
variable [Monad m] [LawfulMonad m]

/-- Goes on from the context of a run that has completed. -/
def resume (next : Context → m (Except Fault RunOutcome)) :
    Except Fault RunOutcome → m (Except Fault RunOutcome)
  | .ok (.completed context) => next context
  | ended => pure ended

/-- Behind a list that completes, a run goes on from the context that it has left. -/
theorem runAll_append (view : CallView) (index : Nat) (callbacks later : List (Callback m)) :
    runAll view index (callbacks ++ later) = runAll view index callbacks >>=
      resume fun context => runAll { view with context } (index + callbacks.length) later := by
  induction callbacks generalizing view index with
  | nil =>
      rw [List.nil_append, runAll, pure_bind]
      rfl
  | cons callback rest ih =>
      have hlength : index + (callback :: rest).length = index + 1 + rest.length := by
        rw [List.length_cons]
        omega
      rw [List.cons_append, runAll, runAll, bind_assoc, hlength]
      apply bind_congr
      intro answer
      cases answer with
      | error cause =>
          dsimp only
          rw [pure_bind]
          rfl
      | ok reply =>
          cases reply with
          | stop =>
              dsimp only
              rw [pure_bind]
              rfl
          | proceed => exact ih view (index + 1)
          | merge update => exact ih _ (index + 1)

/-- The position of the first callback matters to the position of a failure alone. -/
theorem runAll_behind (view : CallView) (count index : Nat) (callbacks : List (Callback m)) :
    runAll view (count + index) callbacks =
      Except.mapError (Fault.behind count) <$> runAll view index callbacks := by
  induction callbacks generalizing view index with
  | nil =>
      rw [runAll, runAll, map_pure]
      rfl
  | cons callback rest ih =>
      rw [runAll, runAll, map_bind]
      apply bind_congr
      intro answer
      cases answer with
      | error cause =>
          dsimp only
          rw [map_pure]
          rfl
      | ok reply =>
          cases reply with
          | stop =>
              dsimp only
              rw [map_pure]
              rfl
          | proceed => exact ih view (index + 1)
          | merge update => exact ih _ (index + 1)

end

end Callback

/-! ## The callbacks of a dispatch -/

namespace Dispatcher

/-- The callbacks of an item run in order up to the first that stops or fails, each shown the same
commands, bindings and switches and the context that the updates in front of it have left; and
running two lists is running the first and, if it completes, the second from there. -/
theorem runCallbacks_in_order [Monad m] [LawfulMonad m] (d : Dispatcher m) (item : ItemId)
    (input : Invocation) (bindings : Bindings) (context : Context)
    (callbacks : List (Callback m)) :
    let view : CallView :=
      { tree := d.tree, item, options := d.options, commands := input.commands, bindings,
        short := input.short, long := input.long,
        merged := d.tree.mergedView item input.short input.long, context }
    let plan := d.planned.runCallbacks item input bindings context
      (callbacks.map (Callback.planned item))
    plan.perform = d.runCallbacks item input bindings context callbacks ∧
    (∀ outcome events, plan.Path outcome events ↔
      Callback.Sequence item view 0 callbacks outcome events) ∧
    (∀ (passed : List (Passed m)) (key : String), (view.after passed).context.get? key =
      (passed.reverse.findSome? fun p => p.update.bind (·.get? key)).or (context.get? key)) ∧
    ∀ later, d.runCallbacks item input bindings context (callbacks ++ later) =
      d.runCallbacks item input bindings context callbacks >>= Callback.resume fun left =>
        Except.mapError (Fault.behind callbacks.length) <$>
          d.runCallbacks item input bindings left later := by
  intro view plan
  have hpath : ∀ outcome events, plan.Path outcome events ↔
      Callback.Sequence item view 0 callbacks outcome events := by
    intro outcome events
    constructor
    · intro h
      exact (Callback.ran_of_path h).sequence
    · intro h
      exact Callback.path_of_ran h.ran
  refine ⟨perform_runAll item view 0 callbacks, hpath, view.get?_after, ?_⟩
  intro later
  have hnext : ∀ left, Callback.runAll { view with context := left } (0 + callbacks.length) later =
      Except.mapError (Fault.behind callbacks.length) <$>
        d.runCallbacks item input bindings left later := by
    intro left
    rw [Nat.zero_add]
    exact Callback.runAll_behind _ callbacks.length 0 later
  calc d.runCallbacks item input bindings context (callbacks ++ later)
      = d.runCallbacks item input bindings context callbacks >>= Callback.resume fun left =>
          Callback.runAll { view with context := left } (0 + callbacks.length) later :=
        Callback.runAll_append view 0 callbacks later
    _ = _ := by rw [funext hnext]

/-- The second callback of the second list is the third of both. -/
theorem runCallbacks_in_order_failed :
    let d : Dispatcher Id := {}
    let run := d.runCallbacks CommandTree.rootId {} [] .empty
    let merge : List (Callback Id) := [.merge none (NameMap.empty.insert "env" (.str "prod"))]
    let fail : List (Callback Id) := [.proceed none, .fail none "boom"]
    run (merge ++ fail) = .error (.failedCallback (d.tree.routeOf CommandTree.rootId) 2 "boom") := by
  intro d run merge fail
  obtain ⟨_, _, _, happend⟩ := d.runCallbacks_in_order CommandTree.rootId {} [] .empty merge
  exact happend fail

end Dispatcher
end CommandRoutes
