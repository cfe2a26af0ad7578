import TableAccess.Text.Hex
import TableAccess.Text.Printable

/-!
# Quoted text

Diagnostic texts put a string between double quotes.  Inside, the quote, the backslash and the
usual control characters have short escapes, and whatever cannot be shown on its own is written
as `\u` with its hexadecimal code point in braces.
-/

namespace TableAccess.Text

/-- One character as it stands between the quotes. -/
def escapeShown (c : Char) : List Char :=
  if c = '"' then ['\\', '"']
  else if c = '\\' then ['\\', '\\']
  else if c = '\n' then ['\\', 'n']
  else if c = '\r' then ['\\', 'r']
  else if c = '\t' then ['\\', 't']
  else if c = '\x00' then ['\\', '0']
  else if isPrintable c then [c]
  else ['\\', 'u', '\x7b'] ++ hexNumber c.toNat ++ ['\x7d']

/-- A string between double quotes, with escapes. -/
def quoted (s : String) : String :=
  String.ofList ('"' :: (s.toList.flatMap escapeShown ++ ['"']))

end TableAccess.Text
