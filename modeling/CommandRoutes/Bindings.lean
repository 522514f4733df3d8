import CommandRoutes.Json.Basic

/-!
# Bound parameters

Following commands down a tree binds one token to each dynamic item and the
remaining tokens to a spread item, from the root down. When a name is bound
twice the later binding is the one that reading finds.
-/
namespace CommandRoutes

inductive Bound
  | one (token : String)
  | many (tokens : List String)
  deriving DecidableEq, Repr

namespace Bound

def tokens : Bound → List String
  | one token => [token]
  | many tokens => tokens

def single? : Bound → Option String
  | one token => some token
  | many _ => none

def toJson : Bound → Json
  | one token => .str token
  | many tokens => .ofStrings tokens

end Bound

abbrev Bindings := List (String × Bound)

namespace Bindings

def get? (bs : Bindings) (name : String) : Option Bound := bs.reverse.lookup name

def toMap (bs : Bindings) : NameMap Bound := .ofList bs

def toJson (bs : Bindings) : Json := .ofFields (bs.map fun b => (b.1, b.2.toJson))

end Bindings
end CommandRoutes
