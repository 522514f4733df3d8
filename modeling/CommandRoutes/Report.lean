import CommandRoutes.Json.Writer
import CommandRoutes.Dispatcher

/-!
# Reports of dispatches

A report says how a dispatch ended, on which route, and with what: bindings and
context, or the reason for help and the fault behind it. As text it has one
line for each part; bindings and context stand as compact JSON.
-/
namespace CommandRoutes

inductive Report
  | completed (route : String) (bindings : Bindings) (context : Context)
  | stopped (route : String) (bindings : Bindings)
  | help (route : String) (reason : HelpCause) (fault : Option Fault)

namespace Report

def ofOutcome (t : CommandTree) : Outcome → Report
  | .completed item context bindings => completed (t.routeOf item) bindings context
  | .stopped item bindings => stopped (t.routeOf item) bindings
  | .help item reason fault => help (t.routeOf item) reason fault

def toJson : Report → Json
  | completed route bindings context => .ofFields [
      ("outcome", .str "completed"), ("route", .str route), ("params", bindings.toJson),
      ("context", .ofMap context)]
  | stopped route bindings => .ofFields [
      ("outcome", .str "stopped"), ("route", .str route), ("params", bindings.toJson)]
  | help route reason fault => .ofFields [
      ("outcome", .str "help"), ("route", .str route), ("reason", .str reason.text),
      ("error", .ofOption (fun e => .str e.message) fault)]

/-- One line a binding, in name order; of two bindings of a name the later one. -/
def bindingLines (bindings : Bindings) : List String :=
  bindings.toMap.entries.map fun b => "param " ++ b.1 ++ " = " ++ b.2.toJson.compact

def lines : Report → List String
  | completed route bindings context =>
    ["completed: " ++ route] ++ bindingLines bindings ++
      ["context: " ++ (Json.ofMap context).compact]
  | stopped route bindings => ["stopped: " ++ route] ++ bindingLines bindings
  | help route reason fault =>
    ["help: " ++ route, "reason: " ++ reason.text] ++
      (fault.map fun e => "error: " ++ e.message).toList

def text (r : Report) : String := String.join (r.lines.map (· ++ "\n"))

end Report

/-- Dispatches with an empty context and reports. -/
def Dispatcher.report {m : Type → Type} [Monad m] (r : Dispatcher m) (input : Invocation) :
    m (Except Fault Report) := do
  return (← r.dispatch input .empty).map (Report.ofOutcome r.tree)

end CommandRoutes
