import TableAccess.Date.Reader
import TableAccess.Sqlite.Basic
import TableAccess.Row

/-!
# Values of stored cells

A cell becomes a value by its storage class.  Only a column that is declared a date reads its
cells in another way: texts as dates where they are such, and everything else as whole numbers.
-/

namespace TableAccess.Sqlite

open TableAccess.Number (Binary64 ofDigits isDigit minInt64 maxInt64)

/-- The nearest signed 64-bit number. -/
def clampInt64 (i : Int) : Int64 := .ofInt (max minInt64 (min maxInt64 i))

/-- A floating point number without its fraction. -/
def truncated (x : Binary64) : Int64 :=
  match x.truncate? with
  | some i => clampInt64 i
  | none => if x.negative then .ofInt minInt64 else .ofInt maxInt64

/-- The blanks before a number in a text. -/
def isNumberSpace (c : Char) : Bool := c == ' ' || (9 ≤ c.toNat && c.toNat ≤ 13)

/-- The number at the front of a text, zero if there is none. -/
def leadingInteger (s : List Char) : Int64 :=
  let (negative, size) := Number.splitSign (s.dropWhile isNumberSpace)
  clampInt64 (Number.signed negative (ofDigits (size.takeWhile isDigit)))

/-- The value by the storage class alone. -/
def Cell.value : Cell → Value
  | .null => .null
  | .integer i => .integer i
  | .real x => .float x
  | .text s => .text s
  | .blob bytes => .ofBytes bytes

/-- The value in a column that is declared a date. -/
def Cell.dateValue : Cell → Value
  | .null => .null
  | .integer i => .integer i
  | .real x => .integer (truncated x)
  | .text s =>
    match Date.read? .hyphenated s.toList with
    | some d => .date d
    | none => .text s
  | .blob bytes => .integer (leadingInteger (bytes.map fun b => Char.ofNat b.toNat))

/-- The column is declared a date. -/
def Column.isDate (c : Column) : Bool := sameName c.declared "date"

/-- The value of a cell in a column. -/
def Column.value (c : Column) (cell : Cell) : Value :=
  if c.isDate then cell.dateValue else cell.value

/-- The values of a row. -/
def Table.rowValues (t : Table) (row : List Cell) : List Value :=
  List.zipWith Column.value t.columns row

/-- All rows of a table with its columns. -/
def Table.result (t : Table) : Result :=
  let columns := t.columns.map Column.name
  ⟨columns, t.rows.map fun row => .ofColumns columns (t.rowValues row)⟩

end TableAccess.Sqlite
