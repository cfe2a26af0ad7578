import TableAccess.Row
import TableAccess.Text.Utf8

/-!
# Comma-separated values

Records end with a line feed, fields are separated by commas.  A field is put between quotes when
it holds a comma, a quote or a line end, and quotes inside are doubled.  A record that would
leave its line empty is written as a pair of quotes.  Every record must have as many fields as
the first one; a longer or shorter one breaks off where it differs.
-/

namespace TableAccess.Csv

/-- The character forces its field between quotes. -/
def isSpecial (c : Char) : Bool := c == ',' || c == '"' || c == '\r' || c == '\n'

/-- The text with every quote doubled. -/
def doubleQuotes (s : List Char) : List Char :=
  s.flatMap fun c => if c = '"' then ['"', '"'] else [c]

/-- A field as it is written. -/
def fieldText (s : List Char) : List Char :=
  if s.any isSpecial then '"' :: (doubleQuotes s ++ ['"']) else s

/-- Fields with commas between them. -/
def joinFields : List (List Char) → List Char
  | [] => []
  | [s] => fieldText s
  | s :: t :: r => fieldText s ++ ',' :: joinFields (t :: r)

/-- A record with its line end. -/
def recordText (fields : List (List Char)) : List Char :=
  match joinFields fields with
  | [] => ['"', '"', '\n']
  | s => s ++ ['\n']

/-- What was written, and why writing stopped if it did. -/
structure Output where
  text : List Char
  problem : Option String
deriving DecidableEq

/-- Why a record of another width is refused. -/
def widthProblem (found expected : Nat) : String :=
  "CSV error: found record with " ++ toString found ++
    " fields, but the previous record has " ++ toString expected ++ " fields"

/-- What is out of a record before its width is known to be wrong: all its fields, but neither
the quote that would close the last one nor a line end. -/
def brokenText : List (List Char) → List Char
  | [] => []
  | [s] => if s.any isSpecial then '"' :: doubleQuotes s else s
  | s :: t :: r => fieldText s ++ ',' :: brokenText (t :: r)

/-- Records of the given width, up to the first of another width. -/
def recordsText (width : Nat) : List (List (List Char)) → Output
  | [] => ⟨[], none⟩
  | fields :: r =>
    if fields.length = width then
      let rest := recordsText width r
      ⟨recordText fields ++ rest.text, rest.problem⟩
    else ⟨brokenText fields, some (widthProblem fields.length width)⟩

/-- A header of the columns, then a record for each row. -/
def output (result : Result) : Output :=
  let header := result.columns.map String.toList
  let body := recordsText header.length
    (result.rows.map fun row => row.values.map Value.fieldText)
  ⟨recordText header ++ body.text, body.problem⟩

/-- How many rows were written, or why writing stopped. -/
def written (result : Result) : Except String Nat :=
  match (output result).problem with
  | none => .ok result.rows.length
  | some problem => .error problem

/-- The bytes of an export. -/
def bytes (s : List Char) : List UInt8 := Text.encode s

end TableAccess.Csv
