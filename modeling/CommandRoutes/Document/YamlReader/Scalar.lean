import CommandRoutes.Document.JsonReader
import CommandRoutes.Document.YamlReader.Cursor

/-!
# Scalars in YAML

A scalar is plain, stands between quotes, or is a block of lines below its
indicator. In the first two kinds a single line end counts as a space, and of
several in a row all but the first are kept; a separator that ends a line is
always kept. A block keeps its lines as they are, or folds them in the same
way, and says what becomes of the line ends after the last one.

Every reader here takes fuel that has to exceed the number of characters left.
-/
namespace CommandRoutes.Document.YamlReader

open JsonReader (hexNumber?)

/-! ## Gaps -/

/-- What stands between two runs of characters in a scalar. -/
inductive Gap
  | blanks (text : List Char)
  /-- The first line end, unless a backslash has taken it, and the further ones. -/
  | lines (first more : List Char)

namespace Gap

def isBroken : Gap → Bool
  | .blanks _ => false
  | .lines .. => true

/-- What the gap amounts to. -/
def text : Gap → List Char
  | .blanks text => text
  | .lines ['\n'] [] => [' ']
  | .lines ['\n'] more => more
  | .lines first more => first ++ more

/-- Blanks count only before the first line end. -/
def addBlank (c : Char) : Gap → Gap
  | .blanks text => .blanks (text ++ [c])
  | g => g

def addLineEnd (c : Char) : Gap → Gap
  | .blanks _ => .lines [c] []
  | .lines first more => .lines first (more ++ [c])

/-- Extends the gap by the blanks and line ends that come next. A tab may not stand in a new line
before column `low`. -/
def extend? (low : Nat) : Nat → Gap → Cursor → Option (Gap × Cursor)
  | 0, _, _ => none
  | fuel + 1, g, c =>
    match c.lineEnd?, c.rest with
    | some (ch, next), _ => extend? low fuel (g.addLineEnd ch) next
    | none, ch :: _ =>
      if !isBlank ch then some (g, c)
      else if g.isBroken && ch = '\t' && c.column < low then none
      else extend? low fuel (g.addBlank ch) c.step
    | none, [] => some (g, c)

end Gap

/-! ## Plain scalars -/

def isFlowMark (c : Char) : Bool := c = ',' || c = '[' || c = ']' || c = '\x7b' || c = '\x7d'

/-- The characters of a plain scalar up to a gap or whatever ends the scalar. -/
def plainRun? (flow : Bool) : List Char → Option (List Char)
  | [] => some []
  | c :: rest =>
    if isBlank c || isLineEnd c then some []
    else if flow && c = ':' && (rest.head?.any fun d => isFlowMark d || d = '?') then none
    else if c = ':' && atGap rest then some []
    else if flow && isFlowMark c then some []
    else (plainRun? flow rest).map (c :: ·)

/-- A plain scalar as far as it is left, after a gap. Outside flow collections its further lines
stand at column `low` or to the right of it. Answers with the place after the gap that follows, and
whether that gap has a line end. -/
def plain? (flow : Bool) (low : Nat) : Nat → Gap → Cursor → Option (List Char × Cursor × Bool)
  | 0, _, _ => none
  | fuel + 1, before, c =>
    if c.atMark || c.rest.head? = some '#' then some ([], c, before.isBroken)
    else do
      let run ← plainRun? flow c.rest
      if run = [] then return ([], c, before.isBroken)
      let c := c.right run.length
      if !atGap c.rest then return (before.text ++ run, c, false)
      let (after, next) ← Gap.extend? low (fuel + 1) (.blanks []) c
      if !flow && next.column < low then return (before.text ++ run, next, after.isBroken)
      let (more, last) ← plain? flow low fuel after next
      return (before.text ++ run ++ more, last)

/-! ## Scalars in quotes -/

def simpleEscape? : Char → Option Char
  | '0' => some '\x00'
  | 'a' => some '\x07'
  | 'b' => some '\x08'
  | 't' | '\t' => some '\t'
  | 'n' => some '\n'
  | 'v' => some '\x0b'
  | 'f' => some '\x0c'
  | 'r' => some '\r'
  | 'e' => some '\x1b'
  | ' ' => some ' '
  | '"' => some '"'
  | '/' => some '/'
  | '\\' => some '\\'
  | 'N' => some '\u0085'
  | '_' => some '\u00a0'
  | 'L' => some '\u2028'
  | 'P' => some '\u2029'
  | _ => none

/-- How many hexadecimal digits follow this letter of an escape. -/
def escapeWidth? : Char → Option Nat
  | 'x' => some 2
  | 'u' => some 4
  | 'U' => some 8
  | _ => none

/-- The character that a backslash and these characters stand for, and how many they are. -/
def escape? : List Char → Option (Char × Nat)
  | [] => none
  | e :: rest =>
    match escapeWidth? e with
    | some width => do
      if rest.length < width then none
      let n ← hexNumber? (rest.take width)
      if n < 0xD800 ∨ (0xE000 ≤ n ∧ n < 0x110000) then return (Char.ofNat n, width + 1) else none
    | none => (simpleEscape? e).map fun ch => (ch, 1)

/-- The rest of a scalar in quotes of this kind. -/
def quoted? (quote : Char) : Nat → Cursor → Option (List Char × Cursor)
  | 0, _ => none
  | fuel + 1, c =>
    if c.atMark then none
    else
      match c.rest with
      | [] => none
      | ch :: rest =>
        if ch = quote then
          if quote = '\'' && rest.head? = some '\'' then do
            let (text, last) ← quoted? quote fuel (c.right 2)
            return ('\'' :: text, last)
          else some ([], c.step)
        else if ch = '\\' && quote = '"' then
          match c.step.lineEnd? with
          | some (_, next) => do
            let (gap, next) ← Gap.extend? 0 (fuel + 1) (.lines [] []) next
            let (text, last) ← quoted? quote fuel next
            return (gap.text ++ text, last)
          | none => do
            let (e, width) ← escape? rest
            let (text, last) ← quoted? quote fuel (c.right (width + 1))
            return (e :: text, last)
        else if atGap c.rest then do
          let (gap, next) ← Gap.extend? 0 (fuel + 1) (.blanks []) c
          let (text, last) ← quoted? quote fuel next
          return (gap.text ++ text, last)
        else do
          let (text, last) ← quoted? quote fuel c.step
          return (ch :: text, last)

/-! ## Blocks of lines -/

/-- What becomes of the line ends at the end of a block. -/
inductive Chomping
  | strip
  /-- The last line keeps its end. -/
  | clip
  | keep

def chomping? : Char → Option Chomping
  | '-' => some .strip
  | '+' => some .keep
  | _ => none

/-- A digit that says how far a block is indented. -/
def indentation? (c : Char) : Option Nat :=
  if '1' ≤ c ∧ c ≤ '9' then some (c.toNat - '0'.toNat) else none

/-- The indicators after the first one, in either order, and the place after them. -/
def blockHeader (c : Cursor) : Chomping × Option Nat × Cursor :=
  match c.rest.head?.bind chomping? with
  | some chomping =>
    match c.step.rest.head?.bind indentation? with
    | some n => (chomping, some n, c.right 2)
    | none => (chomping, none, c.step)
  | none =>
    match c.rest.head?.bind indentation? with
    | some n =>
      match c.step.rest.head?.bind chomping? with
      | some chomping => (chomping, some n, c.right 2)
      | none => (.clip, some n, c.step)
    | none => (.clip, none, c)

/-- Moves past empty lines and the indentation of the next one, up to column `indent` if it is
known. Answers with the ends of the empty lines and the last column that was reached in any line. -/
def emptyLines? (indent : Option Nat) : Nat → Nat → Cursor → Option (List Char × Nat × Cursor)
  | 0, _, _ => none
  | fuel + 1, widest, c =>
    let spaces := (c.rest.takeWhile (· = ' ')).length
    let c := c.right (match indent with
      | some n => min spaces (n - c.column)
      | none => spaces)
    let widest := max widest c.column
    if (indent.all fun n => c.column < n) && c.rest.head? = some '\t' then none
    else
      match c.lineEnd? with
      | some (ch, next) => do
        let (ends, found) ← emptyLines? indent fuel widest next
        return (ch :: ends, found)
      | none => some ([], widest, c)

/-- The lines of a block that stand at column `indent`. `before` is the end of the line before, and
`empty` holds the ends of the empty lines between. Answers with the text, the line ends after it,
and the place where the block ends. -/
def blockLines? (folded : Bool) (indent : Nat) :
    Nat → List Char → Bool → List Char → Cursor →
      Option (List Char × List Char × List Char × Cursor)
  | 0, _, _, _, _ => none
  | fuel + 1, before, beforeBlank, empty, c =>
    if c.column ≠ indent || c.rest = [] then some ([], before, empty, c)
    else do
      let blank := c.rest.head?.any isBlank
      let joint :=
        if folded && before = ['\n'] && !beforeBlank && !blank then
          if empty = [] then [' '] else empty
        else before ++ empty
      let line := c.rest.takeWhile fun ch => !isLineEnd ch
      let c := c.right line.length
      let (end_, next) := match c.lineEnd? with
        | some (ch, next) => ([ch], next)
        | none => ([], c)
      let (empty, _, next) ← emptyLines? (some indent) (fuel + 1) 0 next
      let (more, ends) ← blockLines? folded indent fuel end_ blank empty next
      return (joint ++ line ++ more, ends)

/-- A block after its first indicator. The collection around it forces it to column `low`. -/
def block? (folded : Bool) (low : Nat) (fuel : Nat) (c : Cursor) :
    Option (List Char × Cursor) := do
  let (chomping, indentation, c) := blockHeader c
  let c := (c.past isBlank).skipComment
  let c ← match c.lineEnd?, c.rest with
    | some (_, next), _ => some next
    | none, [] => some c
    | none, _ => none
  let known := indentation.map (low - 1 + ·)
  let (empty, widest, c) ← emptyLines? known fuel 0 c
  let indent := known.getD (max widest (max low 1))
  let (text, lineEnd, empty, c) ← blockLines? folded indent fuel [] false empty c
  let tail := match chomping with
    | .strip => []
    | .clip => lineEnd
    | .keep => lineEnd ++ empty
  return (text ++ tail, c)

end CommandRoutes.Document.YamlReader
