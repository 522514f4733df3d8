import CommandRoutes.Document.JsonReader

/-!
# Blanks and strings in TOML

A string stands on one line between single quotes, or on several lines between
three of them, with escapes if the quotes are double. Line ends inside a string
are kept as they are written, apart from the first one after three opening
quotes.
-/
namespace CommandRoutes.Document.TomlReader

open JsonReader (hexNumber?)

/-- Drops spaces and tabs. -/
def skipSpaces (cs : List Char) : List Char := cs.dropWhile fun c => c = ' ' || c = '\t'

/-- Whether a control character may not stand in a comment or a string. -/
def isForbidden (c : Char) : Bool := (c.toNat < 0x20 && c ≠ '\t') || c = '\x7f'

/-- Drops a line end, or stays at the end of the text. -/
def lineEnd? : List Char → Option (List Char)
  | [] => some []
  | '\n' :: rest => some rest
  | '\r' :: '\n' :: rest => some rest
  | _ => none

def comment? (cs : List Char) : Option (List Char) :=
  match cs with
  | '#' :: rest =>
    let left := rest.dropWhile fun c => !isForbidden c
    match left with
    | [] | '\n' :: _ | '\r' :: '\n' :: _ => some left
    | _ => none
  | _ => some cs

/-- Drops what may follow a statement, up to and with the line end. -/
def restOfLine? (cs : List Char) : Option (List Char) :=
  (comment? (skipSpaces cs)).bind lineEnd?

/-- Drops blanks, comments and line ends; `fuel` bounds the number of lines. -/
def skipLinesWithin? : Nat → List Char → Option (List Char)
  | 0, _ => none
  | fuel + 1, cs => do
    let cs ← comment? (skipSpaces cs)
    match cs with
    | '\n' :: rest => skipLinesWithin? fuel rest
    | '\r' :: '\n' :: rest => skipLinesWithin? fuel rest
    | _ => return cs

def skipLines? (cs : List Char) : Option (List Char) := skipLinesWithin? (cs.length + 1) cs

/-! ## Strings -/

/-- The character with this number, if there is one. -/
def scalar? (n : Nat) : Option Char :=
  if n < 0xD800 ∨ (0xE000 ≤ n ∧ n < 0x110000) then some (Char.ofNat n) else none

/-- A backslash's character, and what is left after it. -/
def escape? : List Char → Option (Char × List Char)
  | 'b' :: rest => some ('\x08', rest)
  | 't' :: rest => some ('\t', rest)
  | 'n' :: rest => some ('\n', rest)
  | 'f' :: rest => some ('\x0c', rest)
  | 'r' :: rest => some ('\r', rest)
  | 'e' :: rest => some ('\x1b', rest)
  | '"' :: rest => some ('"', rest)
  | '\\' :: rest => some ('\\', rest)
  | 'x' :: rest => hex 2 rest
  | 'u' :: rest => hex 4 rest
  | 'U' :: rest => hex 8 rest
  | _ => none
where
  hex (width : Nat) (rest : List Char) : Option (Char × List Char) := do
    if rest.length < width then none
    let n ← hexNumber? (rest.take width)
    let c ← scalar? n
    return (c, rest.drop width)

/-- The rest of a string on one line, up to its quote. -/
def line? (quote : Char) : Nat → List Char → Option (List Char × List Char)
  | 0, _ => none
  | _, [] => none
  | fuel + 1, c :: rest =>
    if c = quote then some ([], rest)
    else if c = '\\' ∧ quote = '"' then do
      let (e, rest) ← escape? rest
      let (text, left) ← line? quote fuel rest
      return (e :: text, left)
    else if isForbidden c then none
    else (line? quote fuel rest).map fun (text, left) => (c :: text, left)

/-- Drops blanks and line ends. -/
def skipBlankLines : List Char → List Char
  | '\r' :: '\n' :: rest => skipBlankLines rest
  | c :: rest => if c = ' ' || c = '\t' || c = '\n' then skipBlankLines rest else c :: rest
  | [] => []

/-- Drops a line end after a backslash with all blanks and line ends that follow. -/
def joinLines? (cs : List Char) : Option (List Char) :=
  match skipSpaces cs with
  | [] => none
  | cs => (lineEnd? cs).map skipBlankLines

/-- The rest of a string over several lines, up to its three quotes; one or two more quotes in
front of these belong to the text. -/
def lines? (quote : Char) : Nat → List Char → Option (List Char × List Char)
  | 0, _ => none
  | _, [] => none
  | fuel + 1, c :: rest =>
    if (c :: rest).take 3 = [quote, quote, quote] then
      let more := ((rest.drop 2).takeWhile (· = quote)).length
      if more ≤ 2 then some (List.replicate more quote, rest.drop (2 + more)) else none
    else if c = '\\' ∧ quote = '"' then
      match joinLines? rest with
      | some rest => lines? quote fuel rest
      | none => do
        let (e, rest) ← escape? rest
        let (text, left) ← lines? quote fuel rest
        return (e :: text, left)
    else if c = '\r' then
      match rest with
      | '\n' :: rest =>
        (lines? quote fuel rest).map fun (text, left) => ('\r' :: '\n' :: text, left)
      | _ => none
    else if isForbidden c ∧ c ≠ '\n' then none
    else (lines? quote fuel rest).map fun (text, left) => (c :: text, left)

/-- A string with its quotes; a line end right after three quotes is not part of the text. -/
def string? (quote : Char) (cs : List Char) : Option (List Char × List Char) :=
  if cs.take 3 = [quote, quote, quote] then
    let body := cs.drop 3
    let body := match body with
      | '\n' :: rest => rest
      | '\r' :: '\n' :: rest => rest
      | _ => body
    lines? quote (body.length + 1) body
  else line? quote cs.length (cs.drop 1)

end CommandRoutes.Document.TomlReader
