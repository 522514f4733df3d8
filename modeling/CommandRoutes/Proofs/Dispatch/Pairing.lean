import CommandRoutes.LoggedRun
import CommandRoutes.Proofs.Dispatch.Gate

/-!
# Hooks around a dispatch

A cleared dispatch asks its hooks in order up to the first that decides, and
runs callbacks only if none does. Once there is an outcome every hook is told,
once and in order. A callback that fails leaves no outcome, and then the hooks
that were asked are not told. There are no other ways through a dispatch, and
hooks and callbacks can answer so that it takes any of these.
-/
namespace CommandRoutes

variable {m : Type → Type}

/-! ## Hooks that are told -/

namespace Event

/-- The hook that was told. -/
def listener? : Event m → Option (Hook m)
  | .told hook _ _ => some hook
  | .asked .. | .called .. => none

/-- The hooks that were told, in order. -/
def listeners (events : List (Event m)) : List (Hook m) := events.filterMap listener?

theorem listeners_append (events later : List (Event m)) :
    listeners (events ++ later) = listeners events ++ listeners later :=
  List.filterMap_append

theorem listeners_told (hooks : List (Hook m)) (view : HookView) (outcome : RunOutcome) :
    listeners (hooks.map (.told · view outcome)) = hooks := by
  induction hooks with
  | nil => rfl
  | cons hook rest ih => exact congrArg (hook :: ·) ih

end Event

open Event

theorem Hook.Asked.listeners_eq_nil {view : HookView} {hooks : List (Hook m)}
    {ruling : Option Ruling} {events : List (Event m)} (h : Asked view hooks ruling events) :
    listeners events = [] := by
  induction h with
  | undecided => rfl
  | decided => rfl
  | further _ ih => exact ih

theorem Callback.Ran.listeners_eq_nil {item : ItemId} {view : CallView} {index : Nat}
    {callbacks : List (Callback m)} {outcome : Except Fault RunOutcome} {events : List (Event m)}
    (h : Ran item view index callbacks outcome events) : listeners events = [] := by
  induction h with
  | done => rfl
  | failed => rfl
  | stopped => rfl
  | proceeded _ ih => exact ih
  | merged _ ih => exact ih

/-! ## Hooks that are asked -/

namespace Hook
variable {view : HookView} {hooks : List (Hook m)} {events : List (Event m)}

theorem asked_none_iff :
    Asked view hooks none events ↔ events = hooks.map (.asked · view none) := by
  induction hooks generalizing events with
  | nil =>
      constructor
      · rintro ⟨⟩
        rfl
      · rintro rfl
        exact .undecided
  | cons hook rest ih =>
      constructor
      · intro h
        cases h with
        | further hrest => exact congrArg (_ :: ·) (ih.mp hrest)
      · rintro rfl
        exact .further (ih.mpr rfl)

theorem asked_some_iff {ruling : Ruling} :
    Asked view hooks (some ruling) events ↔
      ∃ earlier hook later, hooks = earlier ++ hook :: later ∧
        events = earlier.map (.asked · view none) ++ [.asked hook view (some ruling)] := by
  constructor
  · intro h
    generalize hsome : some ruling = answer at h
    induction h with
    | undecided => cases hsome
    | @decided hook rest _ =>
        cases hsome
        exact ⟨[], hook, rest, rfl, rfl⟩
    | @further first _ _ _ _ ih =>
        obtain ⟨earlier, hook, later, rfl, rfl⟩ := ih hsome
        exact ⟨first :: earlier, hook, later, rfl, rfl⟩
  · rintro ⟨earlier, hook, later, rfl, rfl⟩
    induction earlier with
    | nil => exact .decided
    | cons first rest ih => exact .further ih

end Hook

/-! ## Pairing -/

namespace Dispatcher

/-- Hooks are asked up to the first that decides, and then all are told; or none decides, and all
are told the outcome of the callbacks; or a callback fails, and none is told. -/
def Paired (d : Dispatcher m) (target : ItemId) (bindings : Bindings) (input : Invocation)
    (context : Context) (answer : Except Fault Outcome) (events : List (Event m)) : Prop :=
  let view : HookView := { tree := d.tree, item := target, input, bindings }
  let Called := Callback.Ran target (.ofInput d.tree target d.options input bindings context) 0
    (d.callbacksOf target)
  (∃ earlier hook later ruling, d.hooks = earlier ++ hook :: later ∧
    answer = .ok (.ofRun target bindings ruling.outcome) ∧
    events = earlier.map (.asked · view none) ++ .asked hook view (some ruling) ::
      d.hooks.map (.told · view ruling.outcome)) ∨
  (∃ outcome calls, Called (.ok outcome) calls ∧
    answer = .ok (.ofRun target bindings outcome) ∧
    events = d.hooks.map (.asked · view none) ++ calls ++ d.hooks.map (.told · view outcome)) ∨
  ∃ fault calls, Called (.error fault) calls ∧ answer = .error fault ∧
    events = d.hooks.map (.asked · view none) ++ calls

variable {d : Dispatcher m} {target : ItemId} {bindings : Bindings} {input : Invocation}
  {context : Context} {answer : Except Fault Outcome} {events : List (Event m)}

theorem ran_iff_paired :
    d.Ran target bindings input context answer events ↔
      d.Paired target bindings input context answer events := by
  constructor
  · intro h
    cases h with
    | ruled hview hasked =>
        subst hview
        obtain ⟨earlier, hook, later, hhooks, rfl⟩ := Hook.asked_some_iff.mp hasked
        exact .inl ⟨earlier, hook, later, _, hhooks, rfl, (List.append_cons ..).symm⟩
    | completed hview hasked hran =>
        subst hview
        rw [Hook.asked_none_iff.mp hasked, ← List.append_assoc]
        exact .inr (.inl ⟨_, _, hran, rfl, rfl⟩)
    | failed hview hasked hran =>
        subst hview
        rw [Hook.asked_none_iff.mp hasked]
        exact .inr (.inr ⟨_, _, hran, rfl, rfl⟩)
  · rintro (⟨earlier, hook, later, ruling, hhooks, rfl, rfl⟩ | ⟨outcome, calls, hran, rfl, rfl⟩ |
      ⟨fault, calls, hran, rfl, rfl⟩)
    · rw [List.append_cons]
      exact .ruled rfl (Hook.asked_some_iff.mpr ⟨earlier, hook, later, hhooks, rfl⟩)
    · rw [List.append_assoc]
      exact .completed rfl (Hook.asked_none_iff.mpr rfl) hran
    · exact .failed rfl (Hook.asked_none_iff.mpr rfl) hran

/-- All hooks are told, or none if the run has failed. -/
theorem Ran.listeners_eq (h : d.Ran target bindings input context answer events) :
    listeners events = if answer.isOk then d.hooks else [] := by
  cases h with
  | ruled _ hasked =>
      rw [listeners_append, hasked.listeners_eq_nil, listeners_told]
      rfl
  | completed _ hasked hran =>
      rw [listeners_append, hasked.listeners_eq_nil, listeners_append, hran.listeners_eq_nil,
        listeners_told]
      rfl
  | failed _ hasked hran =>
      rw [listeners_append, hasked.listeners_eq_nil, hran.listeners_eq_nil]
      rfl

/-- A dispatch without help on request is cleared if these checks, which can be computed, succeed. -/
theorem cleared_of_checks (item : ItemId)
    (followed : d.tree.follow input.commands = some (item, bindings))
    (selected : (d.tree.selectItem? item input.short input.long).getD item = target)
    (unhelped : d.options.helpOnRequest = false)
    (accepted : d.tree.verify target input.short input.long d.options = .ok ())
    (bound : 0 < (d.callbacksOf target).length) : d.Cleared input target bindings where
  leads := ⟨item, followed, CommandTree.target_iff.mpr selected⟩
  unhelped := fun hhelp => by simp [hhelp.1] at unhelped
  accepted := accepted
  bound := List.ne_nil_of_length_pos bound

/-- The ways through a cleared dispatch are the paired ones: it tells every hook once and in order,
or none if a callback fails. -/
theorem dispatch_paired [Monad m] [LawfulMonad m] (d : Dispatcher m) (input : Invocation)
    (context : Context) (target : ItemId) (bindings : Bindings)
    (cleared : d.Cleared input target bindings) :
    (d.planned.dispatch input context).perform = d.dispatch input context ∧
    ∀ answer events,
      ((d.planned.dispatch input context).Path answer events ↔
        d.Paired target bindings input context answer events) ∧
      ((d.planned.dispatch input context).Path answer events →
        listeners events = if answer.isOk then d.hooks else []) := by
  have hrun : d.planned.dispatch input context = d.planned.run target bindings input context := by
    rw [dispatch, gate_planned, gate_of_cleared cleared]
  refine ⟨perform_dispatch d input context, fun answer events => ?_⟩
  rw [hrun]
  exact ⟨path_run_iff.trans ran_iff_paired, fun hpath => (path_run_iff.mp hpath).listeners_eq⟩

/-- A hook decides, and the hook after it is told without having been asked. -/
theorem dispatch_paired_ruled :
    let ruler : Hook Id := { Hook.idle with before := fun _ => some .stop }
    let d : Dispatcher Id := (((({} : Dispatcher Id).register "go" (.proceed none)).2.withHook
      ruler).withHook .idle)
    let go : Invocation := { commands := ["go"] }
    let view : HookView := { tree := d.tree, item := 1, input := go, bindings := [] }
    d.Cleared go 1 [] ∧
    (d.planned.dispatch go .empty).Path (.ok (.stopped 1 []))
      [.asked ruler view (some .stop), .told ruler view .stopped, .told .idle view .stopped] := by
  intro ruler d go view
  have hcleared : d.Cleared go 1 [] := cleared_of_checks 1 (by decide +kernel)
    (by decide +kernel) (by decide +kernel) (by decide +kernel) (by decide +kernel)
  obtain ⟨_, hpaths⟩ := d.dispatch_paired go .empty 1 [] hcleared
  exact ⟨hcleared, (hpaths _ _).1.mpr (.inl ⟨[], ruler, [.idle], .stop, rfl, rfl, rfl⟩)⟩

/-- A hook that was asked is not told when the callback fails. -/
theorem dispatch_failed_untold :
    let d : Dispatcher Logged := (({} : Dispatcher Logged).register "go"
      (.labelled "fail" (.fail none "boom"))).2.withHook (.watch "h" none none false)
    let go : Invocation := { commands := ["go"] }
    d.Cleared go 1 [] ∧ (d.dispatch go .empty).collect.1.isOk = false ∧
      (d.dispatch go .empty).collect.2 = ["before h /go", "fail"] := by
  intro d go
  have hcleared : d.Cleared go 1 [] := cleared_of_checks 1 (by decide +kernel)
    (by decide +kernel) (by decide +kernel) (by decide +kernel) (by decide +kernel)
  exact ⟨hcleared, by decide +kernel, by decide +kernel⟩

end Dispatcher
end CommandRoutes
