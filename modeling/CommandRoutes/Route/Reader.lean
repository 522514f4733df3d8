import CommandRoutes.Predicate.Reader
import CommandRoutes.Route.Segment

/-!
# Reading routes

One leading `/` is optional, and the empty route has no segments. A `/` inside
a bracket group does not end a segment. A bracket group written directly after
a name becomes a segment of its own. Segments are read from left to right; that
a spread or switch segment is not the last one is noticed after all of them are
read.
-/
namespace CommandRoutes.Route

open Text

/-- Whether a bracket group is open while a route is split, and the quotation open in it. -/
inductive Nesting
  | outside
  | group (quote : Option Char)
  deriving DecidableEq

def Nesting.after : Nesting → Char → Nesting
  | outside, c => if c = '[' then group none else outside
  | group none, c => if c = ']' then outside else group (quoteAfter none c)
  | group (some q), c => group (quoteAfter (some q) c)

/-- Puts a character in front of the first piece. -/
def consFirst (c : Char) : List (List Char) → List (List Char)
  | [] => [[c]]
  | piece :: pieces => (c :: piece) :: pieces

/-- Splits at every `/` outside bracket groups. -/
def splitPieces : Nesting → List Char → List (List Char)
  | _, [] => [[]]
  | nesting, c :: cs =>
    if nesting = .outside ∧ c = '/' then [] :: splitPieces .outside cs
    else consFirst c (splitPieces (nesting.after c) cs)

/-- Reads the name part of a piece, which is not empty. -/
def readName? (head : List Char) : Option Segment :=
  match head with
  | '.' :: '.' :: '.' :: name => if name = [] then none else some (.spread (String.ofList name))
  | ':' :: name => if name = [] then none else some (.dynamic (String.ofList name))
  | name => some (.static (String.ofList name))

/-- The bytes that these characters take in UTF-8. -/
def byteLength (cs : List Char) : Nat := cs.foldr (fun c n => c.utf8Size + n) 0

/-- Reads one piece: a name, bracket groups, or a name and bracket groups. -/
def readPiece (route : String) (piece : List Char) : Except Fault (List Segment) :=
  let head := piece.takeWhile (· ≠ '[')
  let group := piece.dropWhile (· ≠ '[')
  if piece = [] then .error (.emptyName route)
  else if ']' ∈ head then
    .error (.strayClose (String.ofList piece) (byteLength (head.takeWhile (· ≠ ']'))))
  else if head.any isBlank then .error (.blankInName route (String.ofList piece))
  else
    let name : Except Fault (List Segment) :=
      if head = [] then .ok []
      else
        match readName? head with
        | some segment => .ok [segment]
        | none => .error (.emptyName route)
    match name with
    | .error e => .error e
    | .ok named =>
      if group = [] then .ok named
      else
        match Predicate.readAll (String.ofList group) with
        | .error e => .error e
        | .ok predicates => .ok (named ++ [.switch predicates])

def readPieces (route : String) : List (List Char) → Except Fault (List Segment)
  | [] => .ok []
  | piece :: pieces =>
    match readPiece route piece with
    | .error e => .error e
    | .ok segments => (readPieces route pieces).map (segments ++ ·)

/-- The first terminal segment, if it is not the last segment. -/
def misplaced? : List Segment → Option Segment
  | [] => none
  | s :: rest => if s.endsRoute then (if rest = [] then none else some s) else misplaced? rest

/-- The route without its leading `/`. -/
def body (route : String) : List Char :=
  match route.toList with
  | '/' :: rest => rest
  | cs => cs

def read (route : String) : Except Fault (List Segment) :=
  if body route = [] then .ok []
  else
    match readPieces route (splitPieces .outside (body route)) with
    | .error e => .error e
    | .ok segments =>
      match misplaced? segments with
      | some s => .error (.notLast route s.render)
      | none => .ok segments

/-- Writes segments as a route without a leading `/`. -/
def render (segments : List Segment) : String := "/".intercalate (segments.map Segment.render)

end CommandRoutes.Route
