/-!
# Documents

A document is what JSON, YAML and TOML texts have in common: bare words, quoted
texts, lists, and records whose fields stand in the order written. The name of
a field is itself a document, since YAML allows lists and records there. YAML
moreover puts tags on documents, and references in the place of documents that
stand elsewhere in the same text.

References can make a short text stand for a very large document, so only a
limited number of them is followed. A reading carries what is left of that
limit along and fails when it is used up.
-/
namespace CommandRoutes

inductive Document
  /-- A word without quotes: a number, a truth value, the empty value, or a bare text. -/
  | word (text : String)
  | quoted (text : String)
  /-- A quoted text whose escapes do not denote characters. -/
  | garbled
  | list (items : List Document)
  /-- A name may occur more than once. -/
  | record (fields : List (Document × Document))
  | tagged (tag : String) (content : Document)
  | reference (number : Nat)
  deriving Inhabited

/-- What references stand for, and how many of them may still be followed. -/
structure References where
  target? : Nat → Option Document := fun _ => none
  left : Nat := 0

/-- Reading a part of a document. It fails when the part does not have the form asked for. -/
abbrev Reading := StateT References Option

namespace Document

def untagged : Document → Document
  | .tagged _ content => content
  | doc => doc

/-- The document itself, or what it stands for. -/
def followed : Document → Reading Document
  | .reference number => fun refs => do
    let doc ← refs.target? number
    match refs.left with
    | 0 => none
    | left + 1 => return (doc, { refs with left })
  | doc => return doc

mutual

/-- Words, texts and references count once; lists and records count for each of their ends. -/
def size : Document → Nat
  | .list items => sizeOfItems items + 2
  | .record fields => sizeOfFields fields + 2
  | .tagged _ content => content.size
  | .word _ | .quoted _ | .garbled | .reference _ => 1

def sizeOfItems : List Document → Nat
  | [] => 0
  | item :: rest => item.size + sizeOfItems rest

def sizeOfFields : List (Document × Document) → Nat
  | [] => 0
  | (name, value) :: rest => name.size + value.size + sizeOfFields rest

end
end Document
end CommandRoutes
