import CommandRoutes.Text.Printable

/-!
# Quoted texts in messages

A message shows a text between double quotes and a character between single
quotes. The quote in use and the backslash are escaped, the common controls
have letters, and every other character that does not show by itself is written
as its code point in lowercase hexadecimal.
-/
namespace CommandRoutes.Text

/-- One character inside quotes of the kind `quote`. -/
def escapeIn (quote : Char) (c : Char) : List Char :=
  if c = quote || c = '\\' then ['\\', c]
  else if c = '\n' then ['\\', 'n']
  else if c = '\r' then ['\\', 'r']
  else if c = '\t' then ['\\', 't']
  else if c = '\x00' then ['\\', '0']
  else if isGraphemeExtend c || !isPrintable c then
    ['\\', 'u', '\x7b'] ++ Nat.toDigits 16 c.toNat ++ ['\x7d']
  else [c]

def quoted (s : String) : String :=
  String.ofList ('"' :: (s.toList.flatMap (escapeIn '"') ++ ['"']))

def quotedChar (c : Char) : String :=
  String.ofList ('\'' :: (escapeIn '\'' c ++ ['\'']))

def quotedList (l : List String) : String :=
  "[" ++ ", ".intercalate (l.map quoted) ++ "]"

example : escapeIn '"' '"' = ['\\', '"'] := rfl

example : escapeIn '"' '\n' = ['\\', 'n'] := rfl

end CommandRoutes.Text
