import CommandRoutes.Document.YamlReader.Token

/-!
# Reading YAML

A text holds at most one document, which is put together from the tokens of the
text. A part that is left out, such as a value without text behind its colon,
is the empty word, and so is a document without content.

An anchor gives its name a number, which is how many names anchors have had so
far. References by the name stand for the node whose anchor took the same
number last, in the order in which nodes begin. In all, a hundred references
may be followed for each part of the document.
-/
namespace CommandRoutes.Document.YamlReader

/-- What the composition of a document has still to read, and what it knows so far. -/
structure Composition where
  tokens : List Token
  /-- What the handles of tags stand for. -/
  handles : List (String × String) := []
  /-- The numbers of the anchors' names. -/
  numbers : List (String × Nat) := []
  /-- Which anchored node took a number; the latest one comes first. -/
  owners : List (Nat × Nat) := []
  /-- The anchored nodes that are complete, by their order. -/
  nodes : List (Nat × Document) := []

abbrev Composing := StateT Composition Option

def peek : Composing (Option Token) := return (← get).tokens.head?

def advance : Composing Unit := modify fun s => { s with tokens := s.tokens.tail }

def empty : Document := .word ""

/-! ## Anchors and tags -/

/-- Gives a name its number; answers with the order of the node that takes it. -/
def takeNumber (name : String) : Composing Nat := do
  let s ← get
  let number := s.numbers.length
  let order := s.owners.length
  set { s with
    numbers := (name, number) :: s.numbers.filter (·.1 ≠ name)
    owners := (number, order) :: s.owners }
  return order

def numberOf (name : String) : Composing Nat := do
  match (← get).numbers.lookup name with
  | some number => return number
  | none => failure

/-- The text of a tag. -/
def tagText (handle suffix : String) : Composing String := do
  if handle = "" then return suffix
  match (← get).handles.lookup handle with
  | some expansion => return expansion ++ suffix
  | none => failure

def anchor : Composing (Option Nat) := do
  match ← peek with
  | some (.anchor name) => advance; return some (← takeNumber name)
  | _ => return none

def tag : Composing (Option String) := do
  match ← peek with
  | some (.tag handle suffix) => advance; return some (← tagText handle suffix)
  | _ => return none

/-- An anchor and a tag, in either order, as far as they are there. -/
def properties : Composing (Option Nat × Option String) := do
  match ← anchor with
  | some order => return (some order, ← tag)
  | none =>
    let tag ← tag
    return (← anchor, tag)

/-- Completes a node, given the order that its anchor has, and its tag. -/
def complete (order : Option Nat) (tag : Option String) (content : Document) :
    Composing Document := do
  let node := match tag with
    | some tag => .tagged tag content
    | none => content
  if let some order := order then
    modify fun s => { s with nodes := (order, node) :: s.nodes }
  return node

/-- The tag of a truth value. -/
def flagTag : String := "tag:yaml.org,2002:bool"

/-- A scalar under a tag. Lines that are kept as they are can write a truth value by its tag. -/
def scalar? (tag : Option String) : Token → Option Document
  | .plain text => some (.word text)
  | .quoted text => some (.quoted text)
  | .literal text =>
    if tag = some flagTag ∧ text ≠ "" then some (.word text) else some (.quoted text)
  | _ => none

/-! ## Nodes -/

/-- How the collections at a place may be written. -/
inductive Place
  /-- Inside a collection in flow style. -/
  | flow
  | block
  /-- A list needs no indentation of its own. -/
  | field
  deriving DecidableEq

/-- Whether the token says that a list's item has been left out. -/
def endsItem (place : Place) : Token → Bool
  | .dash | .blockEnd => true
  | .key | .value => place = .field
  | _ => false

/-- Whether the token says that a name or a value in block style has been left out. -/
def endsField : Token → Bool
  | .key | .value | .blockEnd => true
  | _ => false

mutual

/-- One node; `fuel` bounds the number of parts. -/
def node : Nat → Place → Composing Document
  | 0, _ => failure
  | fuel + 1, place => do
    match ← peek with
    | some (.reference name) => advance; return .reference (← numberOf name)
    | _ =>
      let (order, tag) ← properties
      match place, ← peek with
      | _, some .listStart => advance; complete order tag (.list (← flowItems fuel true))
      | _, some .recordStart => advance; complete order tag (.record (← flowFields fuel true))
      | .field, some .dash => complete order tag (.list (← blockItems fuel .field))
      | .block, some .blockList | .field, some .blockList =>
        advance; complete order tag (.list (← blockItems fuel .block))
      | .block, some .blockRecord | .field, some .blockRecord =>
        advance; complete order tag (.record (← blockFields fuel))
      | _, token =>
        match token.bind (scalar? tag) with
        | some content => advance; complete order (tag.filter (· ≠ "!")) content
        | none =>
          if order.isSome || tag.isSome then complete order tag empty else failure

/-- The items of a list in block style. A list without indentation ends at any other token. -/
def blockItems : Nat → Place → Composing (List Document)
  | 0, _ => failure
  | fuel + 1, place => do
    match place, ← peek with
    | _, some .dash =>
      advance
      let item ← if (← peek).any (endsItem place) then pure empty else node fuel .block
      return item :: (← blockItems fuel place)
    | .field, _ => return []
    | _, some .blockEnd => advance; return []
    | _, _ => failure

/-- The fields of a record in block style. -/
def blockFields : Nat → Composing (List (Document × Document))
  | 0 => failure
  | fuel + 1 => do
    match ← peek with
    | some .key =>
      advance
      let name ← if (← peek).any endsField then pure empty else node fuel .field
      let value ← match ← peek with
        | some .value =>
          advance
          if (← peek).any endsField then pure empty else node fuel .field
        | _ => pure empty
      return (name, value) :: (← blockFields fuel)
    | some .blockEnd => advance; return []
    | _ => failure

/-- The value of a field in flow style, if it is there. -/
def flowValue : Nat → Token → Composing Document
  | 0, _ => failure
  | fuel + 1, close => do
    match ← peek with
    | some .value =>
      advance
      match ← peek with
      | some t => if t = .comma || t = close then return empty else node fuel .flow
      | none => failure
    | _ => return empty

/-- The items of a list in flow style; `first` says that no comma stands before the next one. A
field may stand as an item; when its name is left out, the token after the mark of the key is
passed over. -/
def flowItems : Nat → Bool → Composing (List Document)
  | 0, _ => failure
  | fuel + 1, first => do
    match ← peek with
    | some .listEnd => advance; return []
    | token =>
      unless first do
        guard (token = some .comma)
        advance
      match ← peek with
      | some .listEnd => advance; return []
      | some .key =>
        advance
        let name ← match ← peek with
          | some .value | some .comma | some .listEnd => advance; pure empty
          | _ => node fuel .flow
        let value ← flowValue fuel .listEnd
        return .record [(name, value)] :: (← flowItems fuel false)
      | _ => return (← node fuel .flow) :: (← flowItems fuel false)

/-- The fields of a record in flow style; `first` says that no comma stands before the next one. A
name without the mark of a key has no value. -/
def flowFields : Nat → Bool → Composing (List (Document × Document))
  | 0, _ => failure
  | fuel + 1, first => do
    match ← peek with
    | some .recordEnd => advance; return []
    | token =>
      unless first do
        guard (token = some .comma)
        advance
      match ← peek with
      | some .recordEnd => advance; return []
      | some .key =>
        advance
        let name ← match ← peek with
          | some .value | some .comma | some .recordEnd => pure empty
          | _ => node fuel .flow
        let value ← flowValue fuel .recordEnd
        return (name, value) :: (← flowFields fuel false)
      | _ => return (← node fuel .flow, empty) :: (← flowFields fuel false)

end

/-! ## The document -/

/-- The directives in front of a document. The version is written once at most, and so is each
handle; the version is 1.1 or 1.2. -/
def directives : Nat → Bool → Composing Unit
  | 0, _ => failure
  | fuel + 1, versioned => do
    match ← peek with
    | some (.directive (.version major minor)) =>
      guard (!versioned && major = 1 && (minor = 1 || minor = 2))
      advance
      directives fuel true
    | some (.directive (.handle handle expansion)) =>
      let s ← get
      guard (s.handles.lookup handle).isNone
      set { s with handles := s.handles ++ [(handle, expansion)] }
      advance
      directives fuel versioned
    | _ => return

/-- Handles that need no directive. -/
def knownHandles : List (String × String) := [("!", "!"), ("!!", "tag:yaml.org,2002:")]

/-- What follows the mark that begins a document. -/
def content (fuel : Nat) : Composing Document := do
  match ← peek with
  | none | some .documentStart | some .documentEnd | some (.directive _) => return empty
  | _ => node fuel .block

/-- The only document of a text. -/
def document (fuel : Nat) : Composing Document := do
  let start ← peek
  directives fuel false
  modify fun s => { s with handles := s.handles ++ knownHandles }
  let doc ← match start with
    | none => pure empty
    | some .documentStart | some (.directive _) =>
      guard ((← peek) = some .documentStart)
      advance
      content fuel
    | _ => node fuel .block
  modify fun s => { s with tokens := s.tokens.dropWhile (· = .documentEnd) }
  guard (← get).tokens.isEmpty
  return doc

/-- What a number stands for when the document is complete. -/
def Composition.target? (s : Composition) (number : Nat) : Option Document :=
  (s.owners.lookup number).bind fun order => s.nodes.lookup order

/-- How many references may be followed, for each part of a document. -/
def followsPerPart : Nat := 100

/-- Reads a whole text. -/
def read? (text : String) : Option (Document × References) := do
  let tokens ← tokens? text
  let (doc, s) ← (document (3 * tokens.length + 3)).run { tokens }
  return (doc, { target? := s.target?, left := followsPerPart * doc.size })

end CommandRoutes.Document.YamlReader
