import CommandRoutes.Document.Basic

/-!
# Reading JSON

The reader accepts the JSON grammar and nothing else: no comments, no trailing
commas, nothing but blanks around the value. Numbers are checked for their form
only. Each part of the reader takes the characters that are left and answers
with what it read and what is left then.
-/
namespace CommandRoutes.Document.JsonReader

def isSpace (c : Char) : Bool := c = ' ' || c = '\n' || c = '\t' || c = '\r'

def skip (cs : List Char) : List Char := cs.dropWhile isSpace

def hexDigit? (c : Char) : Option Nat :=
  if c.isDigit then some (c.toNat - '0'.toNat)
  else if 'a' ≤ c ∧ c ≤ 'f' then some (c.toNat - 'a'.toNat + 10)
  else if 'A' ≤ c ∧ c ≤ 'F' then some (c.toNat - 'A'.toNat + 10)
  else none

/-- The number that these hexadecimal digits write. -/
def hexNumber? (cs : List Char) : Option Nat :=
  cs.foldlM (fun n c => (hexDigit? c).map (16 * n + ·)) 0

def simpleEscape? : Char → Option Char
  | '"' => some '"'
  | '\\' => some '\\'
  | '/' => some '/'
  | 'b' => some '\x08'
  | 'f' => some '\x0c'
  | 'n' => some '\n'
  | 'r' => some '\r'
  | 't' => some '\t'
  | _ => none

/-- The rest of a string after its opening quote, as numbers of characters or half characters. -/
def stringBody? : List Char → Option (List Nat × List Char)
  | [] => none
  | '"' :: rest => some ([], rest)
  | '\\' :: 'u' :: a :: b :: c :: d :: rest => do
    let n ← hexNumber? [a, b, c, d]
    let (ns, left) ← stringBody? rest
    return (n :: ns, left)
  | '\\' :: c :: rest => do
    let e ← simpleEscape? c
    let (ns, left) ← stringBody? rest
    return (e.toNat :: ns, left)
  | c :: rest =>
    if c.toNat < 0x20 || c = '\\' then none
    else do
      let (ns, left) ← stringBody? rest
      return (c.toNat :: ns, left)

/-- Joins halves to characters; fails on a half that stands alone. -/
def characters? : List Nat → Option (List Char)
  | [] => some []
  | n :: rest =>
    if 0xD800 ≤ n ∧ n < 0xDC00 then
      match rest with
      | m :: rest =>
        if 0xDC00 ≤ m ∧ m < 0xE000 then
          (characters? rest).map
            (Char.ofNat (0x10000 + (n - 0xD800) * 0x400 + (m - 0xDC00)) :: ·)
        else none
      | [] => none
    else if 0xDC00 ≤ n ∧ n < 0xE000 then none
    else (characters? rest).map (Char.ofNat n :: ·)

def digits (cs : List Char) : List Char × List Char :=
  (cs.takeWhile Char.isDigit, cs.dropWhile Char.isDigit)

/-- The characters of a number's whole part, fraction and exponent, and what is left. -/
def number? (cs : List Char) : Option (List Char × List Char) := do
  let (sign, cs) := match cs with
    | '-' :: rest => (['-'], rest)
    | _ => ([], cs)
  let (whole, cs) := digits cs
  if whole = [] ∨ (whole.head? = some '0' ∧ whole.length > 1) then none
  let (fraction, cs) ← match cs with
    | '.' :: rest =>
      let (ds, rest) := digits rest
      if ds = [] then none else some ('.' :: ds, rest)
    | _ => some ([], cs)
  let (exponent, cs) ← match cs with
    | e :: rest =>
      if e = 'e' ∨ e = 'E' then
        let (mark, rest) := match rest with
          | '+' :: rest => (['+'], rest)
          | '-' :: rest => (['-'], rest)
          | _ => ([], rest)
        let (ds, rest) := digits rest
        if ds = [] then none else some (e :: mark ++ ds, rest)
      else some ([], cs)
    | [] => some ([], cs)
  return (sign ++ whole ++ fraction ++ exponent, cs)

/-- What is left after the characters of `word`. -/
def after? (word : List Char) (cs : List Char) : Option (List Char) :=
  if word.isPrefixOf cs then some (cs.drop word.length) else none

def literal? (word : String) (cs : List Char) : Option (Document × List Char) :=
  (after? word.toList cs).map fun rest => (.word word, rest)

/-- A string after its opening quote. -/
def string? (cs : List Char) : Option (Document × List Char) := do
  let (ns, left) ← stringBody? cs
  match characters? ns with
  | some text => return (.quoted (String.ofList text), left)
  | none => return (.garbled, left)

mutual

/-- One value; `fuel` bounds the nesting and the number of parts. -/
def value? : Nat → List Char → Option (Document × List Char)
  | 0, _ => none
  | fuel + 1, cs =>
    match skip cs with
    | '"' :: rest => string? rest
    | '[' :: rest =>
      match skip rest with
      | ']' :: left => some (.list [], left)
      | rest => (items? fuel rest).map fun (items, left) => (.list items, left)
    | '\x7b' :: rest =>
      match skip rest with
      | '\x7d' :: left => some (.record [], left)
      | rest => (fields? fuel rest).map fun (fields, left) => (.record fields, left)
    | 'n' :: rest => literal? "null" ('n' :: rest)
    | 't' :: rest => literal? "true" ('t' :: rest)
    | 'f' :: rest => literal? "false" ('f' :: rest)
    | cs => (number? cs).map fun (text, left) => (.word (String.ofList text), left)

/-- The items of a list up to its bracket; there is at least one. -/
def items? : Nat → List Char → Option (List Document × List Char)
  | 0, _ => none
  | fuel + 1, cs => do
    let (item, left) ← value? fuel cs
    match skip left with
    | ',' :: rest => (items? fuel rest).map fun (items, left) => (item :: items, left)
    | ']' :: left => return ([item], left)
    | _ => none

/-- The fields of a record up to its brace; there is at least one. -/
def fields? : Nat → List Char → Option (List (Document × Document) × List Char)
  | 0, _ => none
  | fuel + 1, cs => do
    match skip cs with
    | '"' :: rest =>
      let (name, left) ← string? rest
      match skip left with
      | ':' :: rest =>
        let (value, left) ← value? fuel rest
        match skip left with
        | ',' :: rest =>
          let (fields, left) ← fields? fuel rest
          return ((name, value) :: fields, left)
        | '\x7d' :: left => return ([(name, value)], left)
        | _ => none
      | _ => none
    | _ => none

end

/-- Reads a whole text. -/
def read? (text : String) : Option Document :=
  match value? (2 * text.length + 2) text.toList with
  | some (doc, left) => if skip left = [] then some doc else none
  | none => none

end CommandRoutes.Document.JsonReader
