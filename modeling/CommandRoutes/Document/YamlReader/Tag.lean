import CommandRoutes.Document.JsonReader
import CommandRoutes.Document.YamlReader.Cursor

/-!
# Tags and directives in YAML

A tag is written in full between angle brackets, or as a handle and a suffix.
Directives in front of a document give the version of YAML and say what further
handles stand for.
-/
namespace CommandRoutes.Document.YamlReader

open JsonReader (hexNumber?)

/-- Whether the character may stand in the name of an anchor, a handle or a directive. -/
def isNamePart (c : Char) : Bool := c.isAlphanum || c = '_' || c = '-'

def name (c : Cursor) : List Char × Cursor := (c.rest.takeWhile isNamePart, c.past isNamePart)

/-! ## Tags -/

/-- The byte that a percent sign and two digits write. -/
def octet? : List Char → Option Nat
  | '%' :: a :: b :: _ => hexNumber? [a, b]
  | _ => none

/-- How many bytes a character has that begins with this byte, and what the byte adds to it. -/
def leadingOctet? (n : Nat) : Option (Nat × Nat) :=
  if n < 0x80 then some (1, n)
  else if n / 0x20 = 6 then some (2, n % 0x20)
  else if n / 0x10 = 14 then some (3, n % 0x10)
  else if n / 0x08 = 30 then some (4, n % 0x08)
  else none

/-- A character written as bytes, each with a percent sign. -/
def percentEscape? (c : Cursor) : Option (Char × Cursor) := do
  let (width, first) ← leadingOctet? (← octet? c.rest)
  let number ← (List.range (width - 1)).foldlM
    (fun number i => do
      let n ← octet? (c.rest.drop (3 * (i + 1)))
      if n / 0x40 = 2 then some (number * 0x40 + n % 0x40) else none) first
  return (Char.ofNat number, c.right (3 * width))

/-- Whether the character may stand in a tag; commas and square brackets only in a full one. -/
def isTagPart (full : Bool) (c : Char) : Bool :=
  isNamePart c || ";/?:@&=+$.%!~*'()".toList.contains c || (full && ",[]".toList.contains c)

/-- The characters of a tag, as many as there are. -/
def tagText? (full : Bool) : Nat → Cursor → Option (List Char × Cursor)
  | 0, _ => none
  | fuel + 1, c =>
    match c.rest with
    | [] => some ([], c)
    | ch :: _ =>
      if !isTagPart full ch then some ([], c)
      else do
        let (ch, next) ← if ch = '%' then percentEscape? c else some (ch, c.step)
        let (text, last) ← tagText? full fuel next
        return (ch :: text, last)

/-- Exclamation marks with a name between them, or the first mark and the name alone. -/
def handle? (c : Cursor) : Option (List Char × Cursor) :=
  match c.rest with
  | '!' :: _ =>
    let (text, next) := name c.step
    if next.rest.head? = some '!' then some ('!' :: text ++ ['!'], next.step)
    else some ('!' :: text, next)
  | _ => none

/-- A tag as written: its handle and its suffix. A full tag has no handle, nor has the tag that is
an exclamation mark alone. -/
def tag? (fuel : Nat) (c : Cursor) : Option (List Char × List Char × Cursor) :=
  match c.rest with
  | '!' :: '<' :: _ => do
    let (text, next) ← tagText? true fuel (c.right 2)
    if text ≠ [] ∧ next.rest.head? = some '>' then return ([], text, next.step) else none
  | _ => do
    let (handle, next) ← handle? c
    if handle.length > 1 ∧ handle.getLast? = some '!' then
      let (suffix, next) ← tagText? false fuel next
      if suffix = [] then none else return (handle, suffix, next)
    else
      let (suffix, next) ← tagText? false fuel next
      match handle.tail ++ suffix with
      | [] => return ([], ['!'], next)
      | suffix => return (['!'], suffix, next)

/-! ## Directives -/

inductive Directive
  | version (major minor : Nat)
  /-- The handle stands for this text in front of a suffix. -/
  | handle (handle expansion : String)
  deriving DecidableEq

/-- A number of at most nine digits. -/
def versionPart? (c : Cursor) : Option (Nat × Cursor) :=
  let digits := c.rest.takeWhile Char.isDigit
  if digits = [] ∨ 9 < digits.length then none
  else (String.ofList digits).toNat?.map fun n => (n, c.right digits.length)

/-- What follows the name of a directive. -/
def directiveBody? (fuel : Nat) (c : Cursor) : List Char → Option (Directive × Cursor)
  | ['Y', 'A', 'M', 'L'] => do
    let (major, c) ← versionPart? (c.past isBlank)
    if c.rest.head? ≠ some '.' then none
    let (minor, c) ← versionPart? c.step
    return (.version major minor, c)
  | ['T', 'A', 'G'] => do
    let (handle, c) ← handle? (c.past isBlank)
    if handle ≠ ['!'] ∧ handle.getLast? ≠ some '!' then none
    if !c.rest.head?.any isBlank then none
    let (expansion, c) ← tagText? true fuel (c.past isBlank)
    if expansion = [] ∨ !atGap c.rest then none
    return (.handle (String.ofList handle) (String.ofList expansion), c)
  | _ => none

/-- A directive after its percent sign, with its line. -/
def directive? (fuel : Nat) (c : Cursor) : Option (Directive × Cursor) := do
  let (name, c) := name c
  if !atGap c.rest then none
  let (directive, c) ← directiveBody? fuel c name
  let c := (c.past isBlank).skipComment
  match c.lineEnd?, c.rest with
  | some (_, next), _ => return (directive, next)
  | none, [] => return (directive, c)
  | none, _ => none

end CommandRoutes.Document.YamlReader
