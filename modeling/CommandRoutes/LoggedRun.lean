import CommandRoutes.Json.Writer
import CommandRoutes.Dispatcher

/-!
# Runs that keep a log

In this monad callbacks and hooks leave lines of text behind. A labelled
callback writes its label before it answers; a watching hook writes when it is
asked and what it is told.
-/
namespace CommandRoutes

abbrev Logged := StateM (List String)

def note (line : String) : Logged Unit := modify (· ++ [line])

/-- The answer of a run and the lines that it wrote. -/
def Logged.collect {α : Type} (run : Logged α) : α × List String := StateT.run run []

/-- Writes `label` whenever the callback is called. -/
def Callback.labelled (label : String) (callback : Callback Logged) : Callback Logged :=
  { callback with
    call := fun view => do
      note label
      callback.call view }

def RunOutcome.describe : RunOutcome → String
  | .completed context => "completed " ++ (Json.ofMap context).compact
  | .stopped => "stopped"

/-- A hook that logs, and decides for one route or, without a route, for all; a `quiet` one does
not log what it is told. -/
def Hook.watch (name : String) (route : Option String) (ruling : Option Ruling)
    (quiet : Bool) : Hook Logged where
  before view := do
    note ("before " ++ name ++ " " ++ view.route)
    pure (if route.all (· = view.route) then ruling else none)
  after _ outcome := unless quiet do note ("after " ++ name ++ " " ++ outcome.describe)

end CommandRoutes
