import TableAccess.Json.Basic
import TableAccess.Number.Printer
import TableAccess.Text.Hex

/-!
# Writing JSON texts

Two forms: compact, without any blank, and pretty, with one item or member a line and two more
spaces at each level.  In strings only the quote, the backslash and the control characters below
the space are escaped.
-/

namespace TableAccess.Json

open TableAccess.Number (Layout intText)

/-- One character as it stands in a string. -/
def escapeChar (c : Char) : List Char :=
  if c = '"' then ['\\', '"']
  else if c = '\\' then ['\\', '\\']
  else if c = '\n' then ['\\', 'n']
  else if c = '\r' then ['\\', 'r']
  else if c = '\t' then ['\\', 't']
  else if c.toNat = 8 then ['\\', 'b']
  else if c.toNat = 12 then ['\\', 'f']
  else if c.toNat < 32 then
    ['\\', 'u', '0', '0', Text.hexDigit (c.toNat / 16), Text.hexDigit (c.toNat % 16)]
  else [c]

/-- A string in its quotes. -/
def stringText (s : String) : List Char := '"' :: (s.toList.flatMap escapeChar ++ ['"'])

/-- A number; one that is not finite has no digits and is written as null. -/
def numberText : JsonNumber → List Char
  | .integer i => intText i
  | .float x => if x.isFinite then Layout.json.text x else "null".toList

mutual

/-- The text of a value without blanks. -/
def compact : Json → List Char
  | .null => "null".toList
  | .bool true => "true".toList
  | .bool false => "false".toList
  | .number n => numberText n
  | .string s => stringText s
  | .array items => '[' :: (compactItems items ++ [']'])
  | .object members => '\x7b' :: (compactMembers members ++ ['\x7d'])

/-- Items with commas between them. -/
def compactItems : List Json → List Char
  | [] => []
  | [v] => compact v
  | v :: w :: r => compact v ++ ',' :: compactItems (w :: r)

/-- Members with commas between them. -/
def compactMembers : List (String × Json) → List Char
  | [] => []
  | [(k, v)] => stringText k ++ ':' :: compact v
  | (k, v) :: m :: r => stringText k ++ ':' :: (compact v ++ ',' :: compactMembers (m :: r))

end

/-- The start of a line at a nesting level. -/
def newLine (level : Nat) : List Char := '\n' :: List.replicate (2 * level) ' '

mutual

/-- The text of a value at a nesting level, in lines. -/
def prettyAt (level : Nat) : Json → List Char
  | .null => "null".toList
  | .bool true => "true".toList
  | .bool false => "false".toList
  | .number n => numberText n
  | .string s => stringText s
  | .array [] => ['[', ']']
  | .array (v :: r) => '[' :: (prettyItems (level + 1) (v :: r) ++ (newLine level ++ [']']))
  | .object [] => ['\x7b', '\x7d']
  | .object (m :: r) =>
    '\x7b' :: (prettyMembers (level + 1) (m :: r) ++ (newLine level ++ ['\x7d']))

/-- Items, each on a line of its own, with commas after all but the last. -/
def prettyItems (level : Nat) : List Json → List Char
  | [] => []
  | [v] => newLine level ++ prettyAt level v
  | v :: w :: r => newLine level ++ (prettyAt level v ++ ',' :: prettyItems level (w :: r))

/-- Members, each on a line of its own, with commas after all but the last. -/
def prettyMembers (level : Nat) : List (String × Json) → List Char
  | [] => []
  | [(k, v)] => newLine level ++ (stringText k ++ ':' :: ' ' :: prettyAt level v)
  | (k, v) :: m :: r =>
    newLine level ++
      (stringText k ++ ':' :: ' ' :: (prettyAt level v ++ ',' :: prettyMembers level (m :: r)))

end

/-- The text of a value in lines. -/
def pretty (v : Json) : List Char := prettyAt 0 v

end TableAccess.Json
