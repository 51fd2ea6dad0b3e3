-- Text between double quotes, with escapes for the quote, the backslash and for every character
-- that has no shape of its own or would join the one before it.
import KeyAccess.Text.Printable

namespace KeyAccess.Text

/-- The escaped form of a code point: its hexadecimal digits between braces. -/
def codePointEscape (c : Char) : List Char :=
  ['\\', 'u', '\x7b'] ++ Nat.toDigits 16 c.toNat ++ ['\x7d']

/-- One character inside quoted text. -/
def quotedChar (c : Char) : List Char :=
  if c = '\x00' then ['\\', '0']
  else if c = '\t' then ['\\', 't']
  else if c = '\r' then ['\\', 'r']
  else if c = '\n' then ['\\', 'n']
  else if c = '"' then ['\\', '"']
  else if c = '\\' then ['\\', '\\']
  else if extendsGrapheme c || !isPrintable c then codePointEscape c
  else [c]

/-- The text between double quotes. -/
def quoted (s : String) : String :=
  String.ofList ('"' :: s.toList.flatMap quotedChar ++ ['"'])

/-- A list of texts: quoted, separated by commas, in square brackets. -/
def quotedList (items : List String) : String :=
  "[" ++ String.intercalate ", " (items.map quoted) ++ "]"

/-- A set of texts: quoted, separated by commas, in braces. -/
def quotedSet (items : List String) : String :=
  "\x7b" ++ String.intercalate ", " (items.map quoted) ++ "\x7d"

end KeyAccess.Text
