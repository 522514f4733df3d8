import CommandRoutes.Predicate.Basic
import CommandRoutes.Fault

/-!
# Reading predicates

The text is scanned once. Only blanks may stand between groups. Inside a group
a quote of either kind opens a quotation that the same quote closes, and no
bracket counts while one is open. A group is read when its `]` is reached, so
of several faults the leftmost group's is reported.
-/
namespace CommandRoutes

open Text

def isQuote (c : Char) : Bool := c = '\'' || c = '"'

/-- The quotation open after `c`, given the one open before it. -/
def quoteAfter : Option Char → Char → Option Char
  | none, c => if isQuote c then some c else none
  | some q, c => if c = q then none else some q

namespace Predicate

/-- Splits at the first `=` outside quotations. -/
def splitAtEquals : Option Char → List Char → List Char × Option (List Char)
  | _, [] => ([], none)
  | quote, c :: cs =>
    if quote = none ∧ c = '=' then ([], some cs)
    else
      let (left, right) := splitAtEquals (quoteAfter quote c) cs
      (c :: left, right)

/-- A literal is bare, or stands whole between two quotes that it does not hold itself. -/
def readLiteral? (text : List Char) : Option Literal :=
  match text with
  | [] => some (.bare "")
  | q :: rest =>
    if isQuote q then
      if rest.getLast? = some q ∧ q ∉ rest.dropLast then
        some (.quoted (String.ofList rest.dropLast))
      else none
    else if rest.any isQuote then none
    else some (.bare (String.ofList text))

/-- Reads what stands between a `[` and its `]`; `input` is the text that messages name. -/
def readGroup (input : String) (raw : List Char) : Except Fault Predicate :=
  let (left, right) := splitAtEquals none raw
  let id := trim left
  if id = [] then .error (.missingId input)
  else if id.any isQuote then .error (.brokenQuotation (String.ofList raw))
  else
    match id.find? isBlank with
    | some found => .error (.strayCharacter input found)
    | none =>
      match right with
      | none => .ok { id := String.ofList id }
      | some value =>
        match readLiteral? (trim value) with
        | some literal => .ok { id := String.ofList id, value := some literal }
        | none => .error (.brokenQuotation (String.ofList raw))

/-- Where the scan stands: between groups, or in one that was opened at a byte position, with its
text so far (last character first) and the open quotation. -/
inductive Scan
  | between
  | group (openedAt : Nat) (raw : List Char) (quote : Option Char)

def scan (input : String) : Scan → Nat → List Char → Except Fault (List Predicate)
  | .between, _, [] => .ok []
  | .group openedAt _ none, _, [] => .error (.openGroup input openedAt)
  | .group _ raw (some _), _, [] => .error (.brokenQuotation (String.ofList raw.reverse))
  | .between, i, c :: cs =>
    if c = '[' then scan input (.group i [] none) (i + c.utf8Size) cs
    else if c = ']' then .error (.strayClose input i)
    else if isBlank c then scan input .between (i + c.utf8Size) cs
    else .error (.strayCharacter input c)
  | .group openedAt raw none, i, c :: cs =>
    if c = ']' then
      match readGroup input raw.reverse with
      | .error e => .error e
      | .ok p => (scan input .between (i + c.utf8Size) cs).map (p :: ·)
    else if c = '[' then .error (.openGroup input openedAt)
    else scan input (.group openedAt (c :: raw) (quoteAfter none c)) (i + c.utf8Size) cs
  | .group openedAt raw (some q), i, c :: cs =>
    scan input (.group openedAt (c :: raw) (quoteAfter (some q) c)) (i + c.utf8Size) cs

/-- Reads a row of bracket groups. -/
def readAll (text : String) : Except Fault (List Predicate) :=
  scan text .between 0 text.toList

end Predicate
end CommandRoutes
