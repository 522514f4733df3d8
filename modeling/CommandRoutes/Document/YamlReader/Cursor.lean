/-!
# Places in a YAML text

A cursor holds the characters that are left and says where the first of them
stands. Lines end with a line feed, a carriage return or both together, a next
line, or a line or paragraph separator; inside a scalar the separators stand
for themselves and every other line end is a line feed.
-/
namespace CommandRoutes.Document.YamlReader

structure Cursor where
  rest : List Char
  /-- How many bytes stand before the cursor. -/
  offset : Nat := 0
  line : Nat := 0
  column : Nat := 0

/-- Whether a text may hold this character at all. -/
def isAllowed (c : Char) : Bool :=
  let n := c.toNat
  c = '\t' || c = '\n' || c = '\r' || (0x20 ≤ n && n ≤ 0x7E) || n = 0x85 ||
    (0xA0 ≤ n && n ≤ 0xFFFD) || 0x10000 ≤ n

def isBlank (c : Char) : Bool := c = ' ' || c = '\t'

def isSeparator (c : Char) : Bool := c = '\u2028' || c = '\u2029'

def isLineEnd (c : Char) : Bool := c = '\n' || c = '\r' || c = '\u0085' || isSeparator c

/-- Whether nothing, a blank or a line end comes next. -/
def atGap : List Char → Bool
  | [] => true
  | c :: _ => isBlank c || isLineEnd c

namespace Cursor

/-- Moves past one character of the line. -/
def step (c : Cursor) : Cursor :=
  match c.rest with
  | [] => c
  | ch :: rest => { c with rest, offset := c.offset + ch.utf8Size, column := c.column + 1 }

/-- Moves past `n` characters of the line. -/
def right (c : Cursor) : Nat → Cursor
  | 0 => c
  | n + 1 => c.step.right n

/-- Moves past the characters of the line that come next and satisfy `p`. -/
def past (p : Char → Bool) (c : Cursor) : Cursor := c.right (c.rest.takeWhile p).length

/-- What the next line end counts for, and the start of the next line. -/
def lineEnd? (c : Cursor) : Option (Char × Cursor) :=
  match c.rest with
  | '\r' :: '\n' :: rest =>
    some ('\n', { rest, offset := c.offset + 2, line := c.line + 1, column := 0 })
  | ch :: rest =>
    if isLineEnd ch then
      some (if isSeparator ch then ch else '\n',
        { rest, offset := c.offset + ch.utf8Size, line := c.line + 1, column := 0 })
    else none
  | [] => none

def skipComment (c : Cursor) : Cursor :=
  if c.rest.head? = some '#' then c.past fun ch => !isLineEnd ch else c

/-- Whether a mark that begins or ends a document comes next. -/
def atMark (c : Cursor) : Bool :=
  c.column = 0 &&
    (c.rest.take 3 = ['-', '-', '-'] || c.rest.take 3 = ['.', '.', '.']) && atGap (c.rest.drop 3)

end Cursor
end CommandRoutes.Document.YamlReader
