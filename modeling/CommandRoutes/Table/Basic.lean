import CommandRoutes.Options
import CommandRoutes.Json.Basic
import CommandRoutes.Switch.Basic

/-!
# Route tables

A table holds options and a list of routes. Each route names its path and, as
far as it has them, a description, a handler, switches, aliases for its last
static segment, and whether it is private. A route without a path is no route;
everything else has a default.
-/
namespace CommandRoutes

structure SwitchEntry where
  short : Option String := none
  long : Option String := none
  description : Option String := none
  parameters : List String := []
  default : Option (List String) := none
  deriving DecidableEq, Repr

structure SwitchEntries where
  required : List SwitchEntry := []
  optional : List SwitchEntry := []
  commonRequired : List SwitchEntry := []
  commonOptional : List SwitchEntry := []
  deriving DecidableEq, Repr

structure RouteEntry where
  path : String
  description : Option String := none
  handler : Option String := none
  switches : SwitchEntries := {}
  aliases : List String := []
  isPrivate : Bool := false
  deriving DecidableEq, Repr

structure Table where
  options : Options := {}
  routes : List RouteEntry := []
  deriving DecidableEq, Repr

/-! ## Reading -/

def SwitchEntry.ofDocument (d : Dialect) (doc : Document) : Reading SwitchEntry := do
  let fields ← d.fields ["short", "long", "description", "parameters", "default"] doc
  let short ← fields.read "short" (d.optional d.text) none
  let long ← fields.read "long" (d.optional d.text) none
  let description ← fields.read "description" (d.optional d.text) none
  let parameters ← fields.read "parameters" (d.list d.text) []
  let default ← fields.read "default" (d.optional (d.list d.text)) none
  return { short, long, description, parameters, default }

def SwitchEntries.ofDocument (d : Dialect) (doc : Document) : Reading SwitchEntries := do
  let fields ← d.fields ["required", "optional", "commonRequired", "commonOptional"] doc
  let entries := d.list (SwitchEntry.ofDocument d)
  let required ← fields.read "required" entries []
  let optional ← fields.read "optional" entries []
  let commonRequired ← fields.read "commonRequired" entries []
  let commonOptional ← fields.read "commonOptional" entries []
  return { required, optional, commonRequired, commonOptional }

def RouteEntry.ofDocument (d : Dialect) (doc : Document) : Reading RouteEntry := do
  let fields ← d.fields ["path", "description", "handler", "switches", "aliases", "private"] doc
  let path ← match fields.lookup "path" with
    | some path => d.text path
    | none => failure
  let description ← fields.read "description" (d.optional d.text) none
  let handler ← fields.read "handler" (d.optional d.text) none
  let switches ← fields.read "switches" (SwitchEntries.ofDocument d) {}
  let aliases ← fields.read "aliases" (d.list d.text) []
  let isPrivate ← fields.read "private" d.flag false
  return { path, description, handler, switches, aliases, isPrivate }

def Table.ofDocument (d : Dialect) (doc : Document) : Reading Table := do
  let fields ← d.fields ["config", "routes"] doc
  let options ← fields.read "config" (Options.ofDocument d) {}
  let routes ← fields.read "routes" (d.list (RouteEntry.ofDocument d)) []
  return { options, routes }

/-! ## Showing -/

def SwitchEntry.toJson (e : SwitchEntry) : Json := .ofFields [
  ("short", .ofOption .str e.short), ("long", .ofOption .str e.long),
  ("description", .ofOption .str e.description), ("parameters", .ofStrings e.parameters),
  ("default", .ofOption .ofStrings e.default)]

def SwitchEntries.toJson (e : SwitchEntries) : Json :=
  let entries (es : List SwitchEntry) : Json := .arr (es.map SwitchEntry.toJson)
  .ofFields [
    ("required", entries e.required), ("optional", entries e.optional),
    ("commonRequired", entries e.commonRequired), ("commonOptional", entries e.commonOptional)]

def RouteEntry.toJson (e : RouteEntry) : Json := .ofFields [
  ("path", .str e.path), ("description", .ofOption .str e.description),
  ("handler", .ofOption .str e.handler), ("switches", e.switches.toJson),
  ("aliases", .ofStrings e.aliases), ("private", .bool e.isPrivate)]

/-- The table with every field written out. -/
def Table.toJson (t : Table) : Json := .ofFields [
  ("config", t.options.toJson), ("routes", .arr (t.routes.map RouteEntry.toJson))]

end CommandRoutes
