import CommandRoutes.Document.Basic

/-!
# Dialects

The formats differ in what a word may stand for and in how freely a list may be
written for a record. A `Dialect` says how, and the readings below follow it:
a text, a truth value, a list, a part that may be absent, a choice by its name,
and the named fields of a record.
-/
namespace CommandRoutes

/-- Whether the fields of a record may be written as a list of their values. -/
inductive ListedRecords
  | refused
  /-- At most as many values as there are fields. -/
  | exact
  /-- Values beyond the last field are ignored. -/
  | open
  deriving DecidableEq

structure Dialect where
  /-- Whether a bare word is a text as well. -/
  wordIsText : Bool
  absentWords : List String
  trueWords : List String
  falseWords : List String
  listedRecords : ListedRecords
  /-- Whether the empty word stands for an empty list or record. -/
  emptyWordIsEmpty : Bool
  /-- What may follow the name of a choice when it is written as a field. -/
  isChoiceFiller : Document → Bool

/-- Fields of a record under their names. -/
abbrev Fields := List (String × Document)

/-- Reads a field that has a default when it is not written. -/
def Fields.read {α : Type} (fields : Fields) (name : String) (read : Document → Reading α)
    (default : α) : Reading α :=
  match fields.lookup name with
  | some doc => read doc
  | none => return default

namespace Dialect

def json : Dialect where
  wordIsText := false
  absentWords := ["null"]
  trueWords := ["true"]
  falseWords := ["false"]
  listedRecords := .exact
  emptyWordIsEmpty := false
  isChoiceFiller
    | .word text => text = "null"
    | _ => false

def yaml : Dialect where
  wordIsText := true
  absentWords := ["", "~", "null", "Null", "NULL"]
  trueWords := ["true", "True", "TRUE"]
  falseWords := ["false", "False", "FALSE"]
  listedRecords := .refused
  emptyWordIsEmpty := true
  isChoiceFiller _ := false

def toml : Dialect where
  wordIsText := false
  absentWords := []
  trueWords := ["true"]
  falseWords := ["false"]
  listedRecords := .open
  emptyWordIsEmpty := false
  isChoiceFiller
    | .list items => items.isEmpty
    | .record fields => fields.isEmpty
    | _ => false

/-- The tag of a word that stands for nothing. -/
def absentTag : String := "tag:yaml.org,2002:null"

variable (d : Dialect)

def text (doc : Document) : Reading String := do
  match (← doc.followed).untagged with
  | .quoted text => return text
  | .word text => if d.wordIsText then return text else failure
  | _ => failure

def flag (doc : Document) : Reading Bool := do
  match (← doc.followed).untagged with
  | .word text =>
    if d.trueWords.contains text then return true
    else if d.falseWords.contains text then return false
    else failure
  | _ => failure

/-- The items of a list, each read by `read`. -/
def list {α : Type} (read : Document → Reading α) (doc : Document) : Reading (List α) := do
  match (← doc.followed).untagged with
  | .list items => items.mapM read
  | .word text => if d.emptyWordIsEmpty && text = "" then return [] else failure
  | _ => failure

/-- A part that may be absent. A word with a tag is absent by its tag alone, and has to be spelled
out then. -/
def optional {α : Type} (read : Document → Reading α) (doc : Document) : Reading (Option α) := do
  match ← doc.followed with
  | .word text => if d.absentWords.contains text then return none else some <$> read (.word text)
  | .tagged tag (.word text) =>
    if tag ≠ absentTag then some <$> read (.tagged tag (.word text))
    else if text ≠ "" && d.absentWords.contains text then return none
    else failure
  | doc => some <$> read doc

/-- Succeeds if the document chooses `name`, the only choice there is. A tag of the text's own
names the choice by itself, with nothing beside it. -/
def choice (name : String) (doc : Document) : Reading Unit := do
  match ← doc.followed with
  | .record [(field, filler)] =>
    guard ((← d.text field) = name && d.isChoiceFiller filler)
  | .tagged tag content =>
    if tag.toList.head? = some '!' then
      match content with
      | .word text => guard (tag = "!" ++ name && d.absentWords.contains text)
      | _ => failure
    else guard ((← d.text content) = name)
  | doc => guard ((← d.text doc) = name)

/-- The values of the named fields, in the order of `names`. Other fields are ignored; a named
field that is written twice is refused. -/
def fields (names : List String) (doc : Document) : Reading Fields := do
  match (← doc.followed).untagged with
  | .record fields =>
    let fields ← fields.mapM fun (name, value) => do return (← d.text name, value)
    let known := fields.filter fun f => names.contains f.1
    if (known.map Prod.fst).Nodup then return known else failure
  | .list items =>
    match d.listedRecords with
    | .refused => failure
    | .exact => if items.length ≤ names.length then return names.zip items else failure
    | .open => return names.zip items
  | .word text => if d.emptyWordIsEmpty && text = "" then return [] else failure
  | _ => failure

end Dialect

/-- A document with all that it takes to read it. -/
structure Source where
  dialect : Dialect
  document : Document
  references : References := {}

def Source.read? {α : Type} (s : Source) (read : Dialect → Document → Reading α) : Option α :=
  ((read s.dialect s.document).run s.references).map Prod.fst

end CommandRoutes
