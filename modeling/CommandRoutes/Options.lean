import CommandRoutes.Document.Dialect
import CommandRoutes.Json.Basic
import CommandRoutes.Switch.Set
import CommandRoutes.Text.Blank

/-!
# Options of a dispatcher

The options say how help is asked for, which situations are answered with help
instead of an error, and whether unknown switches are rejected. Environment
variables override three of them; a value that cannot be read changes nothing.
-/
namespace CommandRoutes

structure Options where
  applicationName : String := ""
  /-- Whether a supplied help switch asks for help. -/
  helpBySwitch : Bool := false
  helpShort : String := "h"
  helpLong : String := "help"
  helpOnUnknownCommand : Bool := false
  helpOnNoAction : Bool := false
  helpOnRejectedSwitches : Bool := false
  helpOnRequest : Bool := false
  /-- Rejects supplied switches that nothing declares. -/
  strict : Bool := true
  deriving DecidableEq, Repr

namespace Options

def asksForHelp (o : Options) (short long : Supplied) : Bool :=
  o.helpBySwitch && (short.contains o.helpShort || long.contains o.helpLong)

/-- The text with ASCII capitals made small. -/
def lowercase (s : String) : String := s.map Char.toLower

def readFlag? (value : String) : Option Bool :=
  let word := lowercase (String.ofList (Text.trim value.toList))
  if ["1", "true", "yes", "on"].contains word then some true
  else if ["0", "false", "no", "off"].contains word then some false
  else none

def readHelpKind? (value : String) : Option Bool :=
  let word := lowercase value
  if word = "switch" then some true
  else if word = "none" ∨ word = "" then some false
  else none

/-- Applies the environment variables that `lookup` knows. -/
def override (o : Options) (lookup : String → Option String) : Options :=
  { o with
    applicationName := (lookup "VERBROUTER_APP_NAME").getD o.applicationName
    helpBySwitch := ((lookup "VERBROUTER_HELP_TYPE").bind readHelpKind?).getD o.helpBySwitch
    strict :=
      ((lookup "VERBROUTER_STRICT_SWITCHES").bind readFlag?).getD o.strict }

def toJson (o : Options) : Json := .ofFields [
  ("applicationName", .str o.applicationName),
  ("helpType", if o.helpBySwitch then .str "switch" else .null),
  ("helpShortSwitch", .str o.helpShort),
  ("helpLongSwitch", .str o.helpLong),
  ("helpOnNoTarget", .bool o.helpOnUnknownCommand),
  ("helpOnNoCallback", .bool o.helpOnNoAction),
  ("helpOnVerifySwitchFailure", .bool o.helpOnRejectedSwitches),
  ("helpOnAskedForHelp", .bool o.helpOnRequest),
  ("strictSwitches", .bool o.strict)]

def fieldNames : List String :=
  ["applicationName", "helpType", "helpShortSwitch", "helpLongSwitch", "helpOnNoTarget",
    "helpOnNoCallback", "helpOnVerifySwitchFailure", "helpOnAskedForHelp", "strictSwitches"]

/-- Reads options; a field that is not written has its default. -/
def ofDocument (d : Dialect) (doc : Document) : Reading Options := do
  let fields ← d.fields fieldNames doc
  let applicationName ← fields.read "applicationName" d.text ""
  let helpKind ← fields.read "helpType" (d.optional (d.choice "switch")) none
  let helpShort ← fields.read "helpShortSwitch" d.text "h"
  let helpLong ← fields.read "helpLongSwitch" d.text "help"
  let helpOnUnknownCommand ← fields.read "helpOnNoTarget" d.flag false
  let helpOnNoAction ← fields.read "helpOnNoCallback" d.flag false
  let helpOnRejectedSwitches ← fields.read "helpOnVerifySwitchFailure" d.flag false
  let helpOnRequest ← fields.read "helpOnAskedForHelp" d.flag false
  let strict ← fields.read "strictSwitches" d.flag true
  return { applicationName, helpBySwitch := helpKind.isSome, helpShort, helpLong,
           helpOnUnknownCommand, helpOnNoAction, helpOnRejectedSwitches, helpOnRequest,
           strict }

end Options
end CommandRoutes
