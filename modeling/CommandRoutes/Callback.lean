import CommandRoutes.Bindings
import CommandRoutes.Invocation
import CommandRoutes.Verification

/-!
# Callbacks

Callbacks run one after the other in some monad. Each is shown the same
commands, bindings and switches together with the context as the earlier ones
left it, and asks to go on, to merge an update into the context, or to stop.
A callback that fails ends the run with its position and the route of its item.
What a callback does besides answering is the monad's business.
-/
namespace CommandRoutes

/-- What a callback asks for. -/
inductive Reply
  | proceed
  | merge (update : Context)
  | stop

/-- What a callback is shown of a dispatch. -/
structure CallView where
  tree : CommandTree
  item : ItemId
  options : Options
  commands : List String
  bindings : Bindings
  short : Supplied
  long : Supplied
  /-- The supplied switches under all their names, and the defaults. -/
  merged : Supplied
  /-- The context as the callbacks before this one left it. -/
  context : Context

/-- The route of the item that the callback is bound to. -/
def CallView.route (view : CallView) : String := view.tree.routeOf view.item

structure Callback (m : Type → Type) where
  name : Option String := none
  /-- Answers, or fails with a text. -/
  call : CallView → m (Except String Reply)

/-- How a run of callbacks ends if none of them fails. -/
inductive RunOutcome
  | completed (context : Context)
  | stopped

/-- Runs the callbacks; `index` is the position of the first of them. -/
def Callback.runAll {m : Type → Type} [Monad m] (view : CallView) (index : Nat) :
    List (Callback m) → m (Except Fault RunOutcome)
  | [] => pure (.ok (.completed view.context))
  | callback :: rest => do
    match ← callback.call view with
    | .error cause => pure (.error (.failedCallback view.route index cause))
    | .ok .stop => pure (.ok .stopped)
    | .ok .proceed => Callback.runAll view (index + 1) rest
    | .ok (.merge update) =>
      Callback.runAll { view with context := Context.merge view.context update } (index + 1) rest

/-- What the first callback of a dispatch to `item` is shown. -/
def CallView.ofInput (tree : CommandTree) (item : ItemId) (options : Options) (input : Invocation)
    (bindings : Bindings) (context : Context) : CallView where
  tree := tree
  item := item
  options := options
  commands := input.commands
  bindings := bindings
  short := input.short
  long := input.long
  merged := tree.mergedView item input.short input.long
  context := context

namespace Callback
variable {m : Type → Type} [Monad m]

/-- A callback that does nothing besides answering. -/
def ofFunction (name : Option String) (answer : CallView → Except String Reply) :
    Callback m where
  name := name
  call view := pure (answer view)

def proceed (name : Option String) : Callback m := ofFunction name fun _ => .ok .proceed

def stop (name : Option String) : Callback m := ofFunction name fun _ => .ok .stop

def fail (name : Option String) (cause : String) : Callback m :=
  ofFunction name fun _ => .error cause

def merge (name : Option String) (update : Context) : Callback m :=
  ofFunction name fun _ => .ok (.merge update)

/-- Puts a value made from the view under `key`. -/
def set (name : Option String) (key : String) (value : CallView → Json) : Callback m :=
  ofFunction name fun view => .ok (.merge (NameMap.empty.insert key (value view)))

/-- Appends `value` to the list under `key`; anything else there counts as the empty list. -/
def append (name : Option String) (key : String) (value : Json) : Callback m :=
  set name key fun view =>
    match view.context.get? key with
    | some (.arr items) => .arr (items ++ [value])
    | _ => .arr [value]

/-- The fields by which an echo shows the dispatch. -/
def echoFields (handler : String) (view : CallView) : Context :=
  .ofList [
    ("handler", .str handler),
    ("route", .str view.route),
    ("commands", .ofStrings view.commands),
    ("params", view.bindings.toJson),
    ("switches", .obj (view.merged.entries.map fun e => (e.1, .ofStrings e.2)))]

/-- Shows the dispatch in the context, under the name of a handler. -/
def echo (handler : String) : Callback m :=
  ofFunction (some handler) fun view => .ok (.merge (echoFields handler view))

end Callback
end CommandRoutes
