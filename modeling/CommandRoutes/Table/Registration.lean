import CommandRoutes.Dispatcher
import CommandRoutes.Table.Basic
import CommandRoutes.Tree.CommonSwitches

/-!
# Dispatchers from tables

The routes of a table are registered in their order, each as follows: path,
aliases, description, privacy, the four kinds of switches, and last an echo
under the name of its handler. The first thing that fails ends the work and is
reported with the path of its entry.
-/
namespace CommandRoutes

/-- The switch that an entry defines. -/
def SwitchEntry.switch (e : SwitchEntry) : Except Fault Switch :=
  (Switch.new? e.short e.long).map fun s =>
    { s with
      parameters := e.parameters
      description := e.description.getD s.description
      default := e.default }

/-- A fault in a route of a table. -/
structure TableFault where
  path : String
  cause : Fault
  deriving DecidableEq

/-- The text that says where the fault is. -/
def TableFault.place (f : TableFault) : String := "route " ++ Text.quoted f.path

namespace CommandTree

/-- Adds aliases to the last static one of the items of a route. -/
def giveAliases (t : CommandTree) (items : List ItemId) (aliases : List String) :
    Except Fault CommandTree :=
  if aliases = [] then .ok t
  else
    match items.reverse.find? fun id => (t.get? id).any (·.kind.isStatic) with
    | none => .error (.noAliasesHere (t.routeOf (items.getLast?.getD rootId)))
    | some anchor =>
      aliases.foldlM (fun t aliasName =>
        let grown := t.giveAlias anchor aliasName
        grown.result.map fun _ => grown.tree) t

/-- Adds switches one by one, each made from its entry only when its turn comes. -/
def addEntries (t : CommandTree) (add : CommandTree → Switch → Grown Unit)
    (entries : List SwitchEntry) : Except Fault CommandTree :=
  entries.foldlM (fun t e => do
    let switch ← e.switch
    let grown := add t switch
    grown.result.map fun _ => grown.tree) t

/-- Registers what a table says about a route, its handler apart. -/
def addEntry (t : CommandTree) (e : RouteEntry) : Except Fault (CommandTree × ItemId) := do
  let grown := t.ensureRoute e.path
  let items ← grown.result
  let item := items.getLast?.getD rootId
  let t ← grown.tree.giveAliases items e.aliases
  let t := match e.description with
    | some text => t.setDescription item text
    | none => t
  let t := if e.isPrivate then t.setPrivate item true else t
  let t ← t.addEntries (fun t s => ⟨t.declareRequired item s, .ok ()⟩) e.switches.required
  let t ← t.addEntries (fun t s => ⟨t.declareOptional item s, .ok ()⟩) e.switches.optional
  let t ← t.addEntries (fun t s => t.declareCommonRequired item s) e.switches.commonRequired
  let t ← t.addEntries (fun t s => t.declareCommonOptional item s) e.switches.commonOptional
  return (t, item)

end CommandTree

namespace Dispatcher
variable {m : Type → Type} [Monad m]

def addEntry (d : Dispatcher m) (e : RouteEntry) : Except Fault (Dispatcher m) :=
  (d.tree.addEntry e).map fun (tree, item) =>
    match e.handler with
    | some handler => { d with tree }.withCallback item (.echo handler)
    | none => { d with tree }

/-- The dispatcher of a list of routes under the given options. -/
def ofEntries (options : Options) (entries : List RouteEntry) : Except TableFault (Dispatcher m) :=
  entries.foldlM (fun d e => (d.addEntry e).mapError fun cause => ⟨e.path, cause⟩) { options }

end Dispatcher

def Table.dispatcher {m : Type → Type} [Monad m] (t : Table) :
    Except TableFault (Dispatcher m) :=
  Dispatcher.ofEntries t.options t.routes

end CommandRoutes
