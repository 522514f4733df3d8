import CommandRoutes.Json.Basic

/-!
# Writing JSON

The compact form has no blanks. The indented form puts each element and each
field on a line of its own, two spaces deeper than its container, and writes an
empty container as two brackets. Only the quote, the backslash and the controls
below the space are escaped. A decimal always has a point or an exponent. It is
written out if no more than 16 digits stand in front of its point and no more
than five zeros in front of its digits, and with an exponent otherwise.
-/
namespace CommandRoutes

def Decimal.write (n : Decimal) : String :=
  let digits := n.digits.repr.toList
  -- the point stands behind this many of the digits, or this far in front of them
  let point : Int := digits.length + n.exponent
  let size :=
    if 0 ≤ n.exponent ∧ point ≤ 16 then
      -- 123400.0
      digits ++ List.replicate n.exponent.toNat '0' ++ ['.', '0']
    else if 0 < point ∧ point ≤ 16 then
      -- 12.34
      digits.take point.toNat ++ '.' :: digits.drop point.toNat
    else if -5 < point ∧ point ≤ 0 then
      -- 0.001234
      ['0', '.'] ++ List.replicate (-point).toNat '0' ++ digits
    else
      -- 1.234e-7, or 1e30 for a single digit
      let fraction := digits.drop 1
      digits.take 1 ++ (if fraction.isEmpty then [] else '.' :: fraction) ++
        'e' :: (toString (point - 1)).toList
  String.ofList (if n.isNegative then '-' :: size else size)

namespace Json

/-- The last `width` hexadecimal digits of `n`. -/
def hexDigits : Nat → Nat → List Char
  | 0, _ => []
  | width + 1, n => hexDigits width (n / 16) ++ [Nat.digitChar (n % 16)]

def escape (c : Char) : List Char :=
  if c = '"' || c = '\\' then ['\\', c]
  else if c = '\x08' then ['\\', 'b']
  else if c = '\x0c' then ['\\', 'f']
  else if c = '\n' then ['\\', 'n']
  else if c = '\r' then ['\\', 'r']
  else if c = '\t' then ['\\', 't']
  else if c.toNat < 0x20 then ['\\', 'u'] ++ hexDigits 4 c.toNat
  else [c]

def writeString (s : String) : String :=
  String.ofList ('"' :: (s.toList.flatMap escape ++ ['"']))

mutual

def compact : Json → String
  | .null => "null"
  | .bool b => if b then "true" else "false"
  | .int n => toString n
  | .decimal n => n.write
  | .str s => writeString s
  | .arr items => "[" ++ ",".intercalate (compactItems items) ++ "]"
  | .obj fields => "\x7b" ++ ",".intercalate (compactFields fields) ++ "\x7d"

def compactItems : List Json → List String
  | [] => []
  | v :: vs => compact v :: compactItems vs

def compactFields : List (String × Json) → List String
  | [] => []
  | (k, v) :: fs => (writeString k ++ ":" ++ compact v) :: compactFields fs

end

/-- The parts of a container on lines of their own; `indent` is the container's own. -/
def container (opening closing indent : String) (parts : List String) : String :=
  if parts.isEmpty then opening ++ closing
  else
    opening ++ "\n" ++ ",\n".intercalate (parts.map fun p => indent ++ "  " ++ p) ++ "\n" ++
      indent ++ closing

mutual

def indented (indent : String) : Json → String
  | .arr items => container "[" "]" indent (indentedItems indent items)
  | .obj fields => container "\x7b" "\x7d" indent (indentedFields indent fields)
  | .null => compact .null
  | .bool b => compact (.bool b)
  | .int n => compact (.int n)
  | .decimal n => compact (.decimal n)
  | .str s => compact (.str s)

def indentedItems (indent : String) : List Json → List String
  | [] => []
  | v :: vs => indented (indent ++ "  ") v :: indentedItems indent vs

def indentedFields (indent : String) : List (String × Json) → List String
  | [] => []
  | (k, v) :: fs =>
    (writeString k ++ ": " ++ indented (indent ++ "  ") v) :: indentedFields indent fs

end

def pretty (v : Json) : String := indented "" v

end Json
end CommandRoutes
