import CommandRoutes.NameMap

/-!
# JSON values and contexts

A number is an integer or a decimal, and an integer is never equal to a decimal
of the same value. The fields of an object stand in name order and no name
occurs twice; `Json.ofMap` builds such objects. A context is the top level
object that callbacks read and extend, and merging is shallow: each key of the
update replaces the value of that key.
-/
namespace CommandRoutes

/-- The number `digits * 10 ^ exponent`, or its negative. There is a negative zero. -/
structure Decimal where
  isNegative : Bool := false
  digits : Nat
  exponent : Int
  /-- No digits are left out and none is needless, so that equal numbers are equal decimals. -/
  canonical : digits % 10 ≠ 0 ∨ digits = 0 ∧ exponent = 0
  deriving DecidableEq

namespace Decimal

/-- Takes needless zeros from the digits. -/
def ofScaled (isNegative : Bool) (digits : Nat) (exponent : Int) : Decimal :=
  if h : digits = 0 then { isNegative, digits, exponent := 0, canonical := .inr ⟨h, rfl⟩ }
  else if h : digits % 10 = 0 then ofScaled isNegative (digits / 10) (exponent + 1)
  else { isNegative, digits, exponent, canonical := .inl h }
termination_by digits
decreasing_by omega

end Decimal

inductive Json
  | null
  | bool (value : Bool)
  | int (value : Int)
  | decimal (value : Decimal)
  | str (value : String)
  | arr (items : List Json)
  | obj (fields : List (String × Json))
  deriving Inhabited

namespace Json

def ofMap (m : NameMap Json) : Json := .obj m.entries

/-- An object with these fields; of two fields with one name the later one stays. -/
def ofFields (fields : List (String × Json)) : Json := .ofMap (.ofList fields)

def ofStrings (items : List String) : Json := .arr (items.map .str)

def ofOption {α : Type} (f : α → Json) : Option α → Json
  | none => .null
  | some a => f a

end Json

abbrev Context := NameMap Json

/-- Every key of `update` replaces the same key of `context`. -/
def Context.merge (context update : Context) : Context := context.insertAll update.entries

theorem Context.get?_merge (context update : Context) (key : String) :
    (context.merge update).get? key = (update.get? key).or (context.get? key) :=
  NameMap.get?_insertAll_entries context update key

end CommandRoutes
