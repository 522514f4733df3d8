import CommandRoutes.Document.Dialect
import CommandRoutes.Document.JsonReader
import CommandRoutes.Document.TomlReader
import CommandRoutes.Document.YamlReader

/-!
# Formats by file name

The extension of a file's name says which format the file has. Extensions are
compared exactly, and a file with any other extension, or none, is JSON.
-/
namespace CommandRoutes

inductive Format
  | json
  | yaml
  | toml
  deriving DecidableEq, Repr

namespace Format

def ofExtension (extension : String) : Format :=
  if extension = "yaml" ∨ extension = "yml" then yaml
  else if extension = "toml" then toml
  else json

/-- The part of a file name after its last dot, unless that dot is the first character. -/
def extension (path : String) : String :=
  let file := (path.toList.reverse.takeWhile (· ≠ '/'))
  let ending := file.takeWhile (· ≠ '.')
  if ending.length + 1 < file.length then String.ofList ending.reverse else ""

/-- The document that a text in this format writes. -/
def source? (format : Format) (text : String) : Option Source :=
  match format with
  | json => (Document.JsonReader.read? text).map fun document => { dialect := .json, document }
  | yaml => (Document.YamlReader.read? text).map fun (document, references) =>
      { dialect := .yaml, document, references }
  | toml => (Document.TomlReader.read? text).map fun document => { dialect := .toml, document }

end Format
end CommandRoutes
