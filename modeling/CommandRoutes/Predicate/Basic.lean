import CommandRoutes.Text.Blank

/-!
# Predicates on supplied switches

A predicate is written as a bracket group: `[id]` asks that a switch is
present, `[id=v]` and `[id='v']` ask that one of its values is `v`. Writing
keeps the distinction between bare and quoted literals and always uses single
quotes. Predicates in a row all have to hold.
-/
namespace CommandRoutes

/-- The text that a predicate compares with. -/
inductive Literal
  | bare (text : String)
  | quoted (text : String)
  deriving DecidableEq, Repr

def Literal.text : Literal → String
  | bare text | quoted text => text

structure Predicate where
  id : String
  value : Option Literal := none
  deriving DecidableEq, Repr

namespace Predicate

/-- Whether the predicate holds of a switch that is supplied with these values. -/
def isMetBy (p : Predicate) (values : List String) : Bool :=
  match p.value with
  | none => true
  | some literal => values.contains literal.text

def render (p : Predicate) : String :=
  match p.value with
  | none => "[" ++ p.id ++ "]"
  | some (.bare text) => "[" ++ p.id ++ "=" ++ text ++ "]"
  | some (.quoted text) => "[" ++ p.id ++ "='" ++ text ++ "']"

def renderAll (ps : List Predicate) : String := String.join (ps.map render)

end Predicate
end CommandRoutes
