import CommandRoutes.Matching
import CommandRoutes.Callback
import CommandRoutes.Tree.Growth

/-!
# Dispatchers

A dispatcher is a tree, options, hooks, and the callbacks bound to path items. A
dispatch first decides without running anything (`Dispatcher.gate`): commands
that lead nowhere, a request for help, rejected switches and an item without
callbacks are answered at once. Otherwise each hook is asked before the
callbacks run, until one decides the outcome itself, and once there is an
outcome every hook is told. A callback that fails leaves no outcome, and then no
hook is told.
-/
namespace CommandRoutes

/-- What a hook sees of a dispatch that is about to run callbacks. -/
structure HookView where
  tree : CommandTree
  item : ItemId
  input : Invocation
  bindings : Bindings

/-- The route of the item whose callbacks are about to run. -/
def HookView.route (view : HookView) : String := view.tree.routeOf view.item

/-- The outcome that a hook chooses in place of the callbacks. -/
inductive Ruling
  | stop
  | complete (context : Context)

def Ruling.outcome : Ruling → RunOutcome
  | stop => .stopped
  | complete context => .completed context

/-- Asked before the callbacks run, and told what a dispatch came to. -/
structure Hook (m : Type → Type) where
  before : HookView → m (Option Ruling)
  after : HookView → RunOutcome → m Unit

/-- A hook that neither decides nor does anything. -/
def Hook.idle {m : Type → Type} [Monad m] : Hook m where
  before _ := pure none
  after _ _ := pure ()

/-- Why help is due. -/
inductive HelpCause
  | unknownCommand
  | asked
  | rejectedSwitches
  | noAction
  deriving DecidableEq, Repr

def HelpCause.text : HelpCause → String
  | unknownCommand => "no matching command"
  | asked => "help requested"
  | rejectedSwitches => "invalid switches"
  | noAction => "command has no action"

/-- How a dispatch that has no fault ends. -/
inductive Outcome
  /-- Every callback ran, or a hook completed in their place. -/
  | completed (item : ItemId) (context : Context) (bindings : Bindings)
  | stopped (item : ItemId) (bindings : Bindings)
  /-- Help for `item` is due. -/
  | help (item : ItemId) (reason : HelpCause) (fault : Option Fault)

namespace Outcome

def item : Outcome → ItemId
  | completed item .. | stopped item .. | help item .. => item

def bindings? : Outcome → Option Bindings
  | completed _ _ bindings | stopped _ bindings => some bindings
  | help .. => none

def ofRun (item : ItemId) (bindings : Bindings) : RunOutcome → Outcome
  | .completed context => completed item context bindings
  | .stopped => stopped item bindings

end Outcome

structure Dispatcher (m : Type → Type) where
  tree : CommandTree := .new
  options : Options := {}
  hooks : List (Hook m) := []
  /-- All callbacks with their items, in the order of their registration. -/
  callbacks : List (ItemId × Callback m) := []

/-- What a dispatch comes to before anything has run. -/
inductive Gate
  | settled (answer : Except Fault Outcome)
  | pass (target : ItemId) (bindings : Bindings)

namespace Dispatcher
variable {m : Type → Type}

def withHook (d : Dispatcher m) (hook : Hook m) : Dispatcher m :=
  { d with hooks := d.hooks ++ [hook] }

def withCallback (d : Dispatcher m) (item : ItemId) (callback : Callback m) : Dispatcher m :=
  { d with callbacks := d.callbacks ++ [(item, callback)] }

def callbacksOf (d : Dispatcher m) (item : ItemId) : List (Callback m) :=
  (d.callbacks.filter fun c => c.1 = item).map Prod.snd

/-- Registers a route and binds a callback to its last item. -/
def register (d : Dispatcher m) (route : String) (callback : Callback m) :
    Except Fault ItemId × Dispatcher m :=
  let grown := d.tree.ensureLeaf route
  let d := { d with tree := grown.tree }
  match grown.result with
  | .error e => (.error e, d)
  | .ok item => (.ok item, d.withCallback item callback)

/-- The routes of all public items that have callbacks. -/
def publicRoutes (d : Dispatcher m) : List String :=
  (d.tree.preorder.map Prod.snd).filter (fun id =>
      !((d.tree.get? id).any PathItem.isPrivate) && !(d.callbacksOf id).isEmpty)
    |>.map d.tree.routeOf

/-- Decides as far as that is possible without running anything. -/
def gate (d : Dispatcher m) (input : Invocation) (context : Context) : Gate :=
  match d.tree.locate input with
  | none =>
    if d.options.helpOnUnknownCommand then
      .settled (.ok (.help CommandTree.rootId .unknownCommand none))
    else .settled (.error (.noRoute input.commands))
  | some found =>
    if d.options.helpOnRequest && d.options.asksForHelp input.short input.long then
      .settled (.ok (.help found.item .asked none))
    else
      match d.tree.verify found.target input.short input.long d.options with
      | .error fault =>
        if d.options.helpOnRejectedSwitches then
          .settled (.ok (.help found.target .rejectedSwitches (some fault)))
        else .settled (.error fault)
      | .ok _ =>
        if (d.callbacksOf found.target).isEmpty then
          if d.options.helpOnNoAction then
            .settled (.ok (.help found.target .noAction none))
          else .settled (.ok (.completed found.target context found.bindings))
        else .pass found.target found.bindings

/-- Asks the hooks in order, up to the first that decides. -/
def askHooks [Monad m] (view : HookView) : List (Hook m) → m (Option Ruling)
  | [] => pure none
  | hook :: rest => do
    match ← hook.before view with
    | some ruling => pure (some ruling)
    | none => askHooks view rest

def tellHooks [Monad m] (view : HookView) (outcome : RunOutcome) : List (Hook m) → m Unit
  | [] => pure ()
  | hook :: rest => do
    hook.after view outcome
    tellHooks view outcome rest

/-- Runs the callbacks of an item with the input's switches. -/
def runCallbacks [Monad m] (d : Dispatcher m) (item : ItemId) (input : Invocation)
    (bindings : Bindings) (context : Context) (callbacks : List (Callback m)) :
    m (Except Fault RunOutcome) :=
  Callback.runAll (.ofInput d.tree item d.options input bindings context) 0 callbacks

/-- The hooks and callbacks of a dispatch that has passed the gate. -/
def run [Monad m] (d : Dispatcher m) (target : ItemId) (bindings : Bindings) (input : Invocation)
    (context : Context) : m (Except Fault Outcome) := do
  let view : HookView := { tree := d.tree, item := target, input, bindings }
  let outcome ← match ← askHooks view d.hooks with
    | some ruling => pure (.ok ruling.outcome)
    | none => d.runCallbacks target input bindings context (d.callbacksOf target)
  match outcome with
  | .error e => pure (.error e)
  | .ok outcome => do
    tellHooks view outcome d.hooks
    pure (.ok (.ofRun target bindings outcome))

def dispatch [Monad m] (d : Dispatcher m) (input : Invocation) (context : Context) :
    m (Except Fault Outcome) :=
  match d.gate input context with
  | .settled answer => pure answer
  | .pass target bindings => d.run target bindings input context

end Dispatcher
end CommandRoutes
