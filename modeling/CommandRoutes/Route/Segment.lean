import CommandRoutes.Predicate.Basic

/-!
# Segments of a route

A route is a list of segments. A spread segment and a switch segment can only
come last.
-/
namespace CommandRoutes

inductive Segment
  | static (name : String)
  | dynamic (name : String)
  | spread (name : String)
  | switch (predicates : List Predicate)
  deriving DecidableEq, Repr

namespace Segment

def endsRoute : Segment → Bool
  | spread _ | switch _ => true
  | static _ | dynamic _ => false

def render : Segment → String
  | static name => name
  | dynamic name => ":" ++ name
  | spread name => "..." ++ name
  | switch predicates => Predicate.renderAll predicates

end Segment
end CommandRoutes
