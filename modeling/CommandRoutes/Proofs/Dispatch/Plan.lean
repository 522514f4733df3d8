import CommandRoutes.Dispatcher

/-!
# Plans of a dispatch

A plan is a tree of invocations: at each step a hook is asked, a callback is
called or a hook is told, and the rest of the plan depends on the answer. A
dispatcher whose hooks and callbacks only plan dispatches like any other, and
performing its plan is the dispatch itself, in any lawful monad. A path through
a plan is what one run invokes, with all answers; the relations beside the
functions that ask hooks and run callbacks say what their paths look like,
however hooks and callbacks answer, and that there is a path for whatever they
answer.
-/
namespace CommandRoutes

/-- What one run invokes at a step, and the answer. -/
inductive Event (m : Type → Type)
  | asked (hook : Hook m) (view : HookView) (ruling : Option Ruling)
  | called (item : ItemId) (callback : Callback m) (view : CallView) (answer : Except String Reply)
  | told (hook : Hook m) (view : HookView) (outcome : RunOutcome)

inductive Plan (m : Type → Type) (α : Type)
  | done (a : α)
  | ask (hook : Hook m) (view : HookView) (next : Option Ruling → Plan m α)
  /-- Calls a callback that hangs at `item`. -/
  | call (item : ItemId) (callback : Callback m) (view : CallView)
      (next : Except String Reply → Plan m α)
  | tell (hook : Hook m) (view : HookView) (outcome : RunOutcome) (next : Plan m α)

namespace Plan
variable {m : Type → Type} {α β : Type}

/-- Goes on with `f` where the plan is done. -/
def andThen (f : α → Plan m β) : Plan m α → Plan m β
  | done a => f a
  | ask hook view next => ask hook view fun ruling => (next ruling).andThen f
  | call item callback view next => call item callback view fun answer => (next answer).andThen f
  | tell hook view outcome next => tell hook view outcome (next.andThen f)

instance : Monad (Plan m) where
  pure := done
  bind plan f := plan.andThen f

/-- Performs the plan with the hooks and callbacks in it. -/
def perform [Monad m] : Plan m α → m α
  | done a => pure a
  | ask hook view next => do (next (← hook.before view)).perform
  | call _ callback view next => do (next (← callback.call view)).perform
  | tell hook view outcome next => do
    hook.after view outcome
    next.perform

/-- One way through the plan, with the answer at its end and the events on the way. -/
inductive Path : Plan m α → α → List (Event m) → Prop
  | done {a : α} : Path (.done a) a []
  | ask {hook : Hook m} {view : HookView} {next : Option Ruling → Plan m α} {ruling : Option Ruling}
      {a : α} {events : List (Event m)} : Path (next ruling) a events →
      Path (.ask hook view next) a (.asked hook view ruling :: events)
  | call {item : ItemId} {callback : Callback m} {view : CallView}
      {next : Except String Reply → Plan m α} {answer : Except String Reply} {a : α}
      {events : List (Event m)} : Path (next answer) a events →
      Path (.call item callback view next) a (.called item callback view answer :: events)
  | tell {hook : Hook m} {view : HookView} {outcome : RunOutcome} {next : Plan m α} {a : α}
      {events : List (Event m)} : Path next a events →
      Path (.tell hook view outcome next) a (.told hook view outcome :: events)

theorem perform_bind [Monad m] [LawfulMonad m] (plan : Plan m α) (f : α → Plan m β) :
    (plan >>= f).perform = plan.perform >>= fun a => (f a).perform := by
  change (plan.andThen f).perform = _
  induction plan with
  | done a => simp [andThen, perform]
  | ask hook view next ih => simp [andThen, perform, ih]
  | call item callback view next ih => simp [andThen, perform, ih]
  | tell hook view outcome next ih => simp [andThen, perform, ih]

/-- A path through two plans in a row goes through the first and then through the second. -/
theorem Path.of_bind {plan : Plan m α} {f : α → Plan m β} {b : β} {events : List (Event m)}
    (h : (plan >>= f).Path b events) :
    ∃ a before after, plan.Path a before ∧ (f a).Path b after ∧ events = before ++ after := by
  change (plan.andThen f).Path b events at h
  induction plan generalizing events with
  | done a => exact ⟨a, [], events, .done, h, rfl⟩
  | ask hook view next ih =>
      cases h with
      | ask hnext =>
          obtain ⟨a, before, after, hbefore, hafter, rfl⟩ := ih _ hnext
          exact ⟨a, _, after, .ask hbefore, hafter, rfl⟩
  | call item callback view next ih =>
      cases h with
      | call hnext =>
          obtain ⟨a, before, after, hbefore, hafter, rfl⟩ := ih _ hnext
          exact ⟨a, _, after, .call hbefore, hafter, rfl⟩
  | tell hook view outcome next ih =>
      cases h with
      | tell hnext =>
          obtain ⟨a, before, after, hbefore, hafter, rfl⟩ := ih hnext
          exact ⟨a, _, after, .tell hbefore, hafter, rfl⟩

theorem Path.bind {plan : Plan m α} {f : α → Plan m β} {a : α} {b : β}
    {before after : List (Event m)} (h : plan.Path a before) (hf : (f a).Path b after) :
    (plan >>= f).Path b (before ++ after) := by
  change (plan.andThen f).Path b (before ++ after)
  induction h with
  | done => exact hf
  | ask _ ih => exact .ask (ih hf)
  | call _ ih => exact .call (ih hf)
  | tell _ ih => exact .tell (ih hf)

end Plan

/-! ## Planning dispatchers -/

variable {m : Type → Type}

def Hook.planned (hook : Hook m) : Hook (Plan m) where
  before view := .ask hook view .done
  after view outcome := .tell hook view outcome (.done ())

def Callback.planned (item : ItemId) (callback : Callback m) : Callback (Plan m) where
  name := callback.name
  call view := .call item callback view .done

/-- The dispatcher with hooks and callbacks that only plan. -/
def Dispatcher.planned (d : Dispatcher m) : Dispatcher (Plan m) where
  tree := d.tree
  options := d.options
  hooks := d.hooks.map Hook.planned
  callbacks := d.callbacks.map fun c => (c.1, c.2.planned c.1)

/-! ## Paths -/

/-- Asking these hooks can end with this ruling after these events. -/
inductive Hook.Asked (view : HookView) : List (Hook m) → Option Ruling → List (Event m) → Prop
  | undecided : Asked view [] none []
  | decided {hook : Hook m} {rest : List (Hook m)} {ruling : Ruling} :
      Asked view (hook :: rest) (some ruling) [.asked hook view (some ruling)]
  | further {hook : Hook m} {rest : List (Hook m)} {ruling : Option Ruling}
      {events : List (Event m)} : Asked view rest ruling events →
      Asked view (hook :: rest) ruling (.asked hook view none :: events)

/-- Running these callbacks of an item, the first of them at this position, can come to this
outcome after these events. -/
inductive Callback.Ran (item : ItemId) : CallView → Nat → List (Callback m) →
    Except Fault RunOutcome → List (Event m) → Prop
  | done {view : CallView} {index : Nat} : Ran item view index [] (.ok (.completed view.context)) []
  | failed {view : CallView} {index : Nat} {callback : Callback m} {rest : List (Callback m)}
      {cause : String} :
      Ran item view index (callback :: rest) (.error (.failedCallback view.route index cause))
        [.called item callback view (.error cause)]
  | stopped {view : CallView} {index : Nat} {callback : Callback m} {rest : List (Callback m)} :
      Ran item view index (callback :: rest) (.ok .stopped) [.called item callback view (.ok .stop)]
  | proceeded {view : CallView} {index : Nat} {callback : Callback m} {rest : List (Callback m)}
      {outcome : Except Fault RunOutcome} {events : List (Event m)} :
      Ran item view (index + 1) rest outcome events →
      Ran item view index (callback :: rest) outcome
        (.called item callback view (.ok .proceed) :: events)
  | merged {view : CallView} {index : Nat} {callback : Callback m} {rest : List (Callback m)}
      {update : Context} {outcome : Except Fault RunOutcome} {events : List (Event m)} :
      Ran item { view with context := Context.merge view.context update } (index + 1) rest outcome
        events →
      Ran item view index (callback :: rest) outcome
        (.called item callback view (.ok (.merge update)) :: events)

namespace Dispatcher

/-- A dispatch that has passed the gate can come to this answer after these events. -/
inductive Ran (d : Dispatcher m) (target : ItemId) (bindings : Bindings) (input : Invocation)
    (context : Context) : Except Fault Outcome → List (Event m) → Prop
  /-- A hook has decided. -/
  | ruled {view : HookView} {ruling : Ruling} {asked : List (Event m)} :
      view = { tree := d.tree, item := target, input, bindings } →
      Hook.Asked view d.hooks (some ruling) asked →
      Ran d target bindings input context (.ok (.ofRun target bindings ruling.outcome))
        (asked ++ d.hooks.map (.told · view ruling.outcome))
  | completed {view : HookView} {outcome : RunOutcome} {asked called : List (Event m)} :
      view = { tree := d.tree, item := target, input, bindings } →
      Hook.Asked view d.hooks none asked →
      Callback.Ran target (.ofInput d.tree target d.options input bindings context) 0
        (d.callbacksOf target) (.ok outcome) called →
      Ran d target bindings input context (.ok (.ofRun target bindings outcome))
        (asked ++ (called ++ d.hooks.map (.told · view outcome)))
  | failed {view : HookView} {fault : Fault} {asked called : List (Event m)} :
      view = { tree := d.tree, item := target, input, bindings } →
      Hook.Asked view d.hooks none asked →
      Callback.Ran target (.ofInput d.tree target d.options input bindings context) 0
        (d.callbacksOf target) (.error fault) called →
      Ran d target bindings input context (.error fault) (asked ++ called)

theorem asked_of_path {view : HookView} {hooks : List (Hook m)} {ruling : Option Ruling}
    {events : List (Event m)}
    (h : (askHooks view (hooks.map Hook.planned)).Path ruling events) :
    Hook.Asked view hooks ruling events := by
  induction hooks generalizing events with
  | nil =>
      cases h
      exact .undecided
  | cons hook rest ih =>
      obtain ⟨answer, before, after, hbefore, hafter, rfl⟩ := Plan.Path.of_bind h
      cases hbefore with
      | ask hdone =>
          cases hdone
          cases answer with
          | some ruling =>
              cases hafter
              exact .decided
          | none => exact .further (ih hafter)

theorem path_of_asked {view : HookView} {hooks : List (Hook m)} {ruling : Option Ruling}
    {events : List (Event m)} (h : Hook.Asked view hooks ruling events) :
    (askHooks view (hooks.map Hook.planned)).Path ruling events := by
  induction h with
  | undecided => exact .done
  | decided => exact .ask .done
  | further _ ih => exact .ask ih

theorem told_of_path {view : HookView} {outcome : RunOutcome} {hooks : List (Hook m)}
    {events : List (Event m)}
    (h : (tellHooks view outcome (hooks.map Hook.planned)).Path () events) :
    events = hooks.map (.told · view outcome) := by
  induction hooks generalizing events with
  | nil =>
      cases h
      rfl
  | cons hook rest ih =>
      obtain ⟨_, before, after, hbefore, hafter, rfl⟩ := Plan.Path.of_bind h
      cases hbefore with
      | tell hdone =>
          cases hdone
          rw [ih hafter]
          rfl

theorem path_told (view : HookView) (outcome : RunOutcome) (hooks : List (Hook m)) :
    (tellHooks view outcome (hooks.map Hook.planned)).Path ()
      (hooks.map (.told · view outcome)) := by
  induction hooks with
  | nil => exact .done
  | cons hook rest ih => exact .tell ih

end Dispatcher

theorem Callback.ran_of_path {item : ItemId} {view : CallView} {index : Nat}
    {callbacks : List (Callback m)} {outcome : Except Fault RunOutcome} {events : List (Event m)}
    (h : (runAll view index (callbacks.map (planned item))).Path outcome events) :
    Ran item view index callbacks outcome events := by
  induction callbacks generalizing view index events with
  | nil =>
      cases h
      exact .done
  | cons callback rest ih =>
      obtain ⟨answer, before, after, hbefore, hafter, rfl⟩ := Plan.Path.of_bind h
      cases hbefore with
      | call hdone =>
          cases hdone
          match answer with
          | .error cause =>
              cases hafter
              exact .failed
          | .ok .stop =>
              cases hafter
              exact .stopped
          | .ok .proceed => exact .proceeded (ih hafter)
          | .ok (.merge update) => exact .merged (ih hafter)

theorem Callback.path_of_ran {item : ItemId} {view : CallView} {index : Nat}
    {callbacks : List (Callback m)} {outcome : Except Fault RunOutcome} {events : List (Event m)}
    (h : Ran item view index callbacks outcome events) :
    (runAll view index (callbacks.map (planned item))).Path outcome events := by
  induction h with
  | done => exact .done
  | failed => exact .call .done
  | stopped => exact .call .done
  | proceeded _ ih => exact .call ih
  | merged _ ih => exact .call ih

/-! ## Whole dispatches -/

namespace Dispatcher

theorem callbacksOf_planned (d : Dispatcher m) (item : ItemId) :
    d.planned.callbacksOf item = (d.callbacksOf item).map (Callback.planned item) := by
  have hfilter : d.planned.callbacks.filter (fun c => c.1 = item) =
      (d.callbacks.filter fun c => c.1 = item).map fun c => (c.1, c.2.planned c.1) := by
    rw [planned, List.filter_map]
    rfl
  rw [callbacksOf, hfilter, callbacksOf, List.map_map, List.map_map]
  refine List.map_congr_left fun c hc => ?_
  have hitem : c.1 = item := by simpa using (List.mem_filter.mp hc).2
  simp [hitem]

theorem gate_planned (d : Dispatcher m) (input : Invocation) (context : Context) :
    d.planned.gate input context = d.gate input context := by
  have hbound : ∀ item, (d.planned.callbacksOf item).isEmpty = (d.callbacksOf item).isEmpty := by
    intro item
    rw [callbacksOf_planned, List.isEmpty_map]
  simp only [gate, hbound]
  rfl

/-- What follows on asking hooks or running callbacks: unless a callback has failed every hook is
told. -/
def conclude [Monad m] (view : HookView) (hooks : List (Hook m)) :
    Except Fault RunOutcome → m (Except Fault Outcome)
  | .error fault => pure (.error fault)
  | .ok outcome => do
    tellHooks view outcome hooks
    pure (.ok (.ofRun view.item view.bindings outcome))

theorem run_eq [Monad m] (d : Dispatcher m) (target : ItemId) (bindings : Bindings)
    (input : Invocation) (context : Context) :
    d.run target bindings input context =
      let view : HookView := { tree := d.tree, item := target, input, bindings }
      askHooks view d.hooks >>= fun ruling =>
        match ruling with
        | some ruling => pure (.ok ruling.outcome) >>= conclude view d.hooks
        | none => d.runCallbacks target input bindings context (d.callbacksOf target) >>=
            conclude view d.hooks :=
  rfl

theorem concluded_of_path {view : HookView} {hooks : List (Hook m)}
    {result : Except Fault RunOutcome} {answer : Except Fault Outcome} {events : List (Event m)}
    (h : (conclude view (hooks.map Hook.planned) result).Path answer events) :
    (∃ fault, result = .error fault ∧ answer = .error fault ∧ events = []) ∨
    ∃ outcome, result = .ok outcome ∧ answer = .ok (.ofRun view.item view.bindings outcome) ∧
      events = hooks.map (.told · view outcome) := by
  cases result with
  | error fault =>
      cases h
      exact .inl ⟨fault, rfl, rfl, rfl⟩
  | ok outcome =>
      obtain ⟨_, told, after, htold, hafter, rfl⟩ := Plan.Path.of_bind h
      cases hafter
      exact .inr ⟨outcome, rfl, rfl, by rw [told_of_path htold, List.append_nil]⟩

theorem ran_of_path {d : Dispatcher m} {target : ItemId} {bindings : Bindings} {input : Invocation}
    {context : Context} {answer : Except Fault Outcome} {events : List (Event m)}
    (h : (d.planned.run target bindings input context).Path answer events) :
    d.Ran target bindings input context answer events := by
  rw [run_eq] at h
  obtain ⟨ruling, asked, after, hasked, hafter, rfl⟩ := Plan.Path.of_bind h
  have hruling := asked_of_path hasked
  cases ruling with
  | some ruling =>
      have htold : (conclude _ (d.hooks.map Hook.planned) (.ok ruling.outcome)).Path answer after :=
        hafter
      obtain ⟨fault, hresult, _⟩ | ⟨outcome, hresult, rfl, rfl⟩ := concluded_of_path htold
      · cases hresult
      · cases hresult
        exact .ruled rfl hruling
  | none =>
      obtain ⟨result, called, told, hcalled, htold, rfl⟩ := Plan.Path.of_bind hafter
      rw [callbacksOf_planned] at hcalled
      have hran := Callback.ran_of_path hcalled
      obtain ⟨fault, rfl, rfl, rfl⟩ | ⟨outcome, rfl, rfl, rfl⟩ := concluded_of_path htold
      · rw [List.append_nil]
        exact .failed rfl hruling hran
      · exact .completed rfl hruling hran

theorem path_conclude (view : HookView) (hooks : List (Hook m)) (outcome : RunOutcome) :
    (conclude view (hooks.map Hook.planned) (.ok outcome)).Path
      (.ok (.ofRun view.item view.bindings outcome)) (hooks.map (.told · view outcome)) := by
  let answer : Except Fault Outcome := .ok (.ofRun view.item view.bindings outcome)
  have hpath := (path_told view outcome hooks).bind (f := fun _ => .done answer) .done
  rwa [List.append_nil] at hpath

theorem path_conclude_error (view : HookView) (hooks : List (Hook m)) (fault : Fault) :
    (conclude view (hooks.map Hook.planned) (.error fault)).Path (.error fault) [] :=
  .done

theorem path_of_ran {d : Dispatcher m} {target : ItemId} {bindings : Bindings} {input : Invocation}
    {context : Context} {answer : Except Fault Outcome} {events : List (Event m)}
    (h : d.Ran target bindings input context answer events) :
    (d.planned.run target bindings input context).Path answer events := by
  rw [run_eq]
  cases h with
  | ruled hview hasked =>
      subst hview
      exact (path_of_asked hasked).bind (path_conclude _ d.hooks _)
  | completed hview hasked hran =>
      subst hview
      have hcalled := Callback.path_of_ran hran
      rw [← callbacksOf_planned] at hcalled
      exact (path_of_asked hasked).bind (hcalled.bind (path_conclude _ d.hooks _))
  | @failed view fault asked called hview hasked hran =>
      subst hview
      have hcalled := Callback.path_of_ran hran
      rw [← callbacksOf_planned] at hcalled
      rw [← List.append_nil called]
      exact (path_of_asked hasked).bind (hcalled.bind (path_conclude_error _ d.hooks fault))

/-- Past the gate the ways through a dispatch are those that `Ran` says, all of them. -/
theorem path_run_iff {d : Dispatcher m} {target : ItemId} {bindings : Bindings}
    {input : Invocation} {context : Context} {answer : Except Fault Outcome}
    {events : List (Event m)} :
    (d.planned.run target bindings input context).Path answer events ↔
      d.Ran target bindings input context answer events :=
  ⟨ran_of_path, path_of_ran⟩

end Dispatcher

/-! ## Performing -/

namespace Dispatcher
variable [Monad m] [LawfulMonad m]

theorem perform_before (hook : Hook m) (view : HookView) :
    (hook.planned.before view).perform = hook.before view :=
  bind_pure _

theorem perform_after (hook : Hook m) (view : HookView) (outcome : RunOutcome) :
    (hook.planned.after view outcome).perform = hook.after view outcome :=
  bind_pure _

theorem perform_call (item : ItemId) (callback : Callback m) (view : CallView) :
    ((callback.planned item).call view).perform = callback.call view :=
  bind_pure _

theorem perform_askHooks (view : HookView) (hooks : List (Hook m)) :
    (askHooks view (hooks.map Hook.planned)).perform = askHooks view hooks := by
  induction hooks with
  | nil => rfl
  | cons hook rest ih =>
      rw [List.map_cons, askHooks, Plan.perform_bind, perform_before, askHooks]
      refine bind_congr fun ruling => ?_
      cases ruling with
      | some ruling => rfl
      | none => exact ih

theorem perform_tellHooks (view : HookView) (outcome : RunOutcome) (hooks : List (Hook m)) :
    (tellHooks view outcome (hooks.map Hook.planned)).perform = tellHooks view outcome hooks := by
  induction hooks with
  | nil => rfl
  | cons hook rest ih =>
      rw [List.map_cons, tellHooks, Plan.perform_bind, perform_after, tellHooks]
      exact bind_congr fun _ => ih

theorem perform_runAll (item : ItemId) (view : CallView) (index : Nat)
    (callbacks : List (Callback m)) :
    (Callback.runAll view index (callbacks.map (Callback.planned item))).perform =
      Callback.runAll view index callbacks := by
  induction callbacks generalizing view index with
  | nil => rfl
  | cons callback rest ih =>
      rw [List.map_cons, Callback.runAll, Plan.perform_bind, perform_call, Callback.runAll]
      refine bind_congr fun answer => ?_
      match answer with
      | .error cause => rfl
      | .ok .stop => rfl
      | .ok .proceed => exact ih view (index + 1)
      | .ok (.merge update) => exact ih _ (index + 1)

theorem perform_conclude (view : HookView) (hooks : List (Hook m))
    (result : Except Fault RunOutcome) :
    (conclude view (hooks.map Hook.planned) result).perform = conclude view hooks result := by
  cases result with
  | error fault => rfl
  | ok outcome =>
      rw [conclude, Plan.perform_bind, perform_tellHooks]
      rfl

theorem perform_run (d : Dispatcher m) (target : ItemId) (bindings : Bindings) (input : Invocation)
    (context : Context) :
    (d.planned.run target bindings input context).perform =
      d.run target bindings input context := by
  rw [run_eq, run_eq, Plan.perform_bind]
  refine (congrArg (· >>= _) (perform_askHooks _ d.hooks)).trans (bind_congr fun ruling => ?_)
  cases ruling with
  | some ruling =>
      refine (perform_conclude _ d.hooks (.ok ruling.outcome)).trans ?_
      exact (pure_bind _ _).symm
  | none =>
      dsimp only
      rw [Plan.perform_bind, callbacksOf_planned]
      refine (congrArg (· >>= _) (perform_runAll target _ 0 _)).trans (bind_congr fun result => ?_)
      exact perform_conclude _ d.hooks result

/-- Performing the plan of a dispatch is the dispatch. -/
theorem perform_dispatch (d : Dispatcher m) (input : Invocation) (context : Context) :
    (d.planned.dispatch input context).perform = d.dispatch input context := by
  rw [dispatch, gate_planned, dispatch]
  cases d.gate input context with
  | settled answer => rfl
  | pass target bindings => exact perform_run d target bindings input context

end Dispatcher
end CommandRoutes
