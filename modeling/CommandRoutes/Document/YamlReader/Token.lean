import CommandRoutes.Document.YamlReader.Scalar
import CommandRoutes.Document.YamlReader.Tag

/-!
# Tokens of a YAML text

The lexer turns a text into tokens, among them those that are not written: the
start and the end of a collection in block style, which follow from columns,
and the mark of a key that only its colon shows. Such a key stands on one line
with its colon, at most 1024 bytes before it. So for every flow collection that
is open, and for the block around them, the lexer remembers the token that may
still turn out to be a key.

Where a line begins, and after some indicators, a key may begin in block style;
elsewhere it may not. A key that stands in the column of the block around it is
required: it has to find its colon.
-/
namespace CommandRoutes.Document.YamlReader

inductive Token
  | directive (directive : Directive)
  | documentStart
  | documentEnd
  /-- A list or a record in block style begins. -/
  | blockList
  | blockRecord
  | blockEnd
  | listStart
  | listEnd
  | recordStart
  | recordEnd
  | comma
  | dash
  | key
  | value
  | reference (name : String)
  | anchor (name : String)
  | tag (handle suffix : String)
  | plain (text : String)
  /-- A scalar in quotes, or a block of lines that is folded. -/
  | quoted (text : String)
  /-- A block of lines that are kept as they are. -/
  | literal (text : String)
  deriving DecidableEq

/-- A token that may be a key, with the place where it begins. -/
structure PossibleKey where
  /-- How many tokens stand before it. -/
  index : Nat
  place : Cursor
  required : Bool

structure Lexer where
  cursor : Cursor
  tokens : Array Token := #[]
  /-- The columns of the open collections in block style, innermost first. -/
  columns : List Nat := []
  possibleKey : Option PossibleKey := none
  /-- The possible keys around each open flow collection, innermost first. -/
  outerKeys : List (Option PossibleKey) := []
  keyAllowed : Bool := true

namespace Lexer

def inFlow (s : Lexer) : Bool := !s.outerKeys.isEmpty

/-- The least column to the right of the block that is open. -/
def low (s : Lexer) : Nat :=
  match s.columns with
  | [] => 0
  | column :: _ => column + 1

/-- Adds a token that ends at `next`. -/
def emit (s : Lexer) (t : Token) (next : Cursor) : Lexer :=
  { s with tokens := s.tokens.push t, cursor := next }

/-! ## Blocks -/

/-- Opens a block at a column further to the right; `index` says before which token. -/
def openBlock (s : Lexer) (column index : Nat) (t : Token) : Lexer :=
  if s.inFlow || column < s.low then s
  else
    { s with columns := column :: s.columns, tokens := s.tokens.insertIdxIfInBounds index t }

/-- Closes all blocks that stand at column `bound` or to the right of it. -/
def closeBlocks (s : Lexer) (bound : Nat) : Lexer :=
  if s.inFlow then s
  else
    let closed := s.columns.takeWhile (bound ≤ ·)
    { s with
      columns := s.columns.drop closed.length
      tokens := s.tokens ++ closed.map fun _ => Token.blockEnd }

/-! ## Possible keys -/

/-- Fails on a required key. -/
def forgetKey? (s : Lexer) : Option Lexer :=
  if s.possibleKey.any PossibleKey.required then none else some { s with possibleKey := none }

/-- Notes that the next token may be a key, if a key may begin here. -/
def noteKey? (s : Lexer) : Option Lexer :=
  if s.keyAllowed then do
    let s ← s.forgetKey?
    let required := !s.inFlow && s.columns.head? = some s.cursor.column
    return { s with possibleKey := some { index := s.tokens.size, place := s.cursor, required } }
  else some s

/-- A possible key that can still find its colon at this place. -/
def reachable? (c : Cursor) : Option PossibleKey → Option (Option PossibleKey)
  | none => some none
  | some key =>
    if c.line = key.place.line ∧ c.offset ≤ key.place.offset + 1024 then some (some key)
    else if key.required then none
    else some none

def dropUnreachable? (s : Lexer) : Option Lexer := do
  let possibleKey ← reachable? s.cursor s.possibleKey
  let outerKeys ← s.outerKeys.mapM (reachable? s.cursor)
  return { s with possibleKey, outerKeys }

/-! ## Moving to the next token -/

/-- Moves past blanks, comments and line ends. A tab is no indentation, and where a key may begin
in block style it is not skipped. -/
def skip : Nat → Lexer → Lexer
  | 0, s => s
  | fuel + 1, s =>
    let c := s.cursor
    let c := if c.column = 0 && c.rest.head? = some '\ufeff' then c.step else c
    let tabs := s.inFlow || !s.keyAllowed
    let c := (c.past fun ch => ch = ' ' || (tabs && ch = '\t')).skipComment
    match c.lineEnd? with
    | some (_, next) =>
      skip fuel { s with cursor := next, keyAllowed := s.keyAllowed || !s.inFlow }
    | none => { s with cursor := c }

/-! ## Kinds of tokens

Each function reads a token of its kind at the cursor. `fuel` exceeds the number of characters
left. -/

/-- Ends all blocks in front of a directive or a mark. -/
def endBlocks? (s : Lexer) : Option Lexer := do
  let s ← (s.closeBlocks 0).forgetKey?
  return { s with keyAllowed := false }

def directive? (fuel : Nat) (s : Lexer) : Option Lexer := do
  let s ← s.endBlocks?
  let (directive, next) ← YamlReader.directive? fuel s.cursor.step
  return s.emit (.directive directive) next

def mark? (s : Lexer) : Option Lexer := do
  let s ← s.endBlocks?
  let t := if s.cursor.rest.head? = some '-' then Token.documentStart else .documentEnd
  return s.emit t (s.cursor.right 3)

def openFlow? (s : Lexer) (t : Token) : Option Lexer := do
  let s ← s.noteKey?
  return { s.emit t s.cursor.step with
    outerKeys := s.possibleKey :: s.outerKeys, possibleKey := none, keyAllowed := true }

def closeFlow? (s : Lexer) (t : Token) : Option Lexer := do
  let s ← s.forgetKey?
  return { s.emit t s.cursor.step with
    outerKeys := s.outerKeys.tail, possibleKey := s.outerKeys.headD none, keyAllowed := false }

def comma? (s : Lexer) : Option Lexer := do
  let s ← s.forgetKey?
  return { s.emit .comma s.cursor.step with keyAllowed := true }

/-- Opens a block for an indicator in block style, where a key has to be allowed. -/
def openBlockHere? (s : Lexer) (t : Token) : Option Lexer :=
  if s.inFlow then some s
  else if s.keyAllowed then some (s.openBlock s.cursor.column s.tokens.size t)
  else none

def dash? (s : Lexer) : Option Lexer := do
  let s ← s.openBlockHere? .blockList
  let s ← s.forgetKey?
  return { s.emit .dash s.cursor.step with keyAllowed := true }

/-- A question mark, which says that a key follows. -/
def keyMark? (s : Lexer) : Option Lexer := do
  let s ← s.openBlockHere? .blockRecord
  let s ← s.forgetKey?
  return { s.emit .key s.cursor.step with keyAllowed := !s.inFlow }

/-- A colon. It makes a key of the possible key, if there is one. -/
def colon? (s : Lexer) : Option Lexer :=
  match s.possibleKey with
  | some key =>
    let s := { s with tokens := s.tokens.insertIdxIfInBounds key.index .key }
    let s := s.openBlock key.place.column key.index .blockRecord
    some { s.emit .value s.cursor.step with possibleKey := none, keyAllowed := false }
  | none => do
    let s ← s.openBlockHere? .blockRecord
    return { s.emit .value s.cursor.step with keyAllowed := !s.inFlow }

/-- Whether the name of an anchor may end here. -/
def endsName : List Char → Bool
  | [] => true
  | c :: rest => atGap (c :: rest) || "?:,]\x7d%@\x60".toList.contains c

/-- An anchor or a reference, by its name. -/
def named? (s : Lexer) (t : String → Token) : Option Lexer := do
  let s ← s.noteKey?
  let (text, next) := name s.cursor.step
  if text = [] ∨ !endsName next.rest then none
  else return { s.emit (t (String.ofList text)) next with keyAllowed := false }

def tag? (fuel : Nat) (s : Lexer) : Option Lexer := do
  let s ← s.noteKey?
  let (handle, suffix, next) ← YamlReader.tag? fuel s.cursor
  if atGap next.rest || (s.inFlow && next.rest.head? = some ',') then
    let t := Token.tag (String.ofList handle) (String.ofList suffix)
    return { s.emit t next with keyAllowed := false }
  else none

def block? (fuel : Nat) (folded : Bool) (s : Lexer) : Option Lexer := do
  let s ← s.forgetKey?
  let (text, next) ← YamlReader.block? folded s.low fuel s.cursor.step
  let t := if folded then Token.quoted else .literal
  return { s.emit (t (String.ofList text)) next with keyAllowed := true }

def quoted? (fuel : Nat) (quote : Char) (s : Lexer) : Option Lexer := do
  let s ← s.noteKey?
  let (text, next) ← YamlReader.quoted? quote fuel s.cursor.step
  return { s.emit (.quoted (String.ofList text)) next with keyAllowed := false }

/-- A plain scalar; a key may begin after it if a line end follows. -/
def plain? (fuel : Nat) (s : Lexer) : Option Lexer := do
  let s ← s.noteKey?
  let (text, next, broken) ← YamlReader.plain? s.inFlow s.low fuel (.blanks []) s.cursor
  return { s.emit (.plain (String.ofList text)) next with keyAllowed := broken }

/-- Reads the token that begins at the cursor. -/
def next? (fuel : Nat) (s : Lexer) : Option Lexer :=
  if s.cursor.atMark then s.mark?
  else
    match s.cursor.rest with
    | [] => none
    | c :: rest =>
      match c with
      | '%' => if s.cursor.column = 0 then s.directive? fuel else none
      | '[' => s.openFlow? .listStart
      | ']' => s.closeFlow? .listEnd
      | '\x7b' => s.openFlow? .recordStart
      | '\x7d' => s.closeFlow? .recordEnd
      | ',' => s.comma?
      | '-' => if atGap rest then s.dash? else s.plain? fuel
      | '?' => if s.inFlow || atGap rest then s.keyMark? else s.plain? fuel
      | ':' => if s.inFlow || atGap rest then s.colon? else s.plain? fuel
      | '*' => s.named? .reference
      | '&' => s.named? .anchor
      | '!' => s.tag? fuel
      | '|' => if s.inFlow then none else s.block? fuel false
      | '>' => if s.inFlow then none else s.block? fuel true
      | '\'' => s.quoted? fuel '\''
      | '"' => s.quoted? fuel '"'
      | '#' | '@' | '\x60' => none
      | _ => if atGap (c :: rest) then none else s.plain? fuel

/-- The tokens of the whole text. -/
def run? : Nat → Lexer → Option (List Token)
  | 0, _ => none
  | fuel + 1, s => do
    let s ← (s.skip (fuel + 1)).dropUnreachable?
    let s := s.closeBlocks (s.cursor.column + 1)
    if s.cursor.rest = [] then return (← s.endBlocks?).tokens.toList
    run? fuel (← s.next? (fuel + 1))

end Lexer

/-- The tokens of a text, unless it has none by the rules. -/
def tokens? (text : String) : Option (List Token) :=
  let cs := text.toList
  if cs.all isAllowed then Lexer.run? (cs.length + 1) { cursor := { rest := cs } } else none

end CommandRoutes.Document.YamlReader
