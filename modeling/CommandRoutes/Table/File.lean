import CommandRoutes.Document.Format
import CommandRoutes.Table.Basic

/-!
# Tables and options in files
-/
namespace CommandRoutes

/-- Reads a file with a table, or nothing if its text does not have the form of one. -/
def Table.read? (format : Format) (text : String) : Option Table :=
  (format.source? text).bind fun source => source.read? Table.ofDocument

/-- Reads a file with options alone. -/
def Options.read? (format : Format) (text : String) : Option Options :=
  (format.source? text).bind fun source => source.read? Options.ofDocument

end CommandRoutes
