import TableAccess.Dbase.Cell
import TableAccess.Error

/-!
# Writing table files

A table is written if its fields can be described, the sizes fit into the header, and every value
can be stored in its cell.  The first obstacle is reported: of the fields before the rows, and of
the rows in order, each from its first cell on.
-/

namespace TableAccess.Dbase

open TableAccess.Number (littleEndian)

/-- Why a table cannot be written. -/
inductive WriteProblem where
  | noFields
  | fieldName (name : String)
  | recordLength (length : Nat)
  | tooManyFields (count : Nat)
  | tooManyRecords (count : Nat)
  | rowWidth (index width fields : Nat)
  | cell (index : Nat) (field : String) (problem : CellProblem)
deriving DecidableEq

def WriteProblem.message : WriteProblem → String
  | .noFields => "a dBase table needs at least one field"
  | .fieldName name =>
    "field name '" ++ name ++ "' must be 1 to " ++ toString (nameRoom - 1) ++ " bytes"
  | .recordLength length => "record length " ++ toString length ++ " exceeds 65535"
  | .tooManyFields count => "too many fields (" ++ toString count ++ ")"
  | .tooManyRecords count => "too many records (" ++ toString count ++ ")"
  | .rowWidth i width fields =>
    "row " ++ toString i ++ " has " ++ toString width ++ " values for " ++ toString fields ++
      " fields"
  | .cell i field problem =>
    "row " ++ toString i ++ ", field '" ++ field ++ "': " ++ problem.message

/-- The name fits into a description, with a zero byte after it. -/
def isStorableName (name : String) : Bool :=
  !name.isEmpty && Text.byteLength name.toList < nameRoom

/-- The size of the header with its field descriptions and the terminator. -/
def headerLength (fields : List Field) : Nat := blockLength + blockLength * fields.length + 1

/-- What stands in the way of a table with so many rows. -/
def layoutProblem? (fields : List Field) (count : Nat) : Option WriteProblem :=
  if fields.isEmpty then some .noFields
  else
    match fields.find? fun f => !isStorableName f.name with
    | some f => some (.fieldName f.name)
    | none =>
      if 65535 < recordLength fields then some (.recordLength (recordLength fields))
      else if 65535 < headerLength fields then some (.tooManyFields fields.length)
      else if 4294967295 < count then some (.tooManyRecords count)
      else none

/-- Zero bytes. -/
def zeros (n : Nat) : List UInt8 := List.replicate n 0

/-- The description of a field. -/
def Field.block (f : Field) : List UInt8 :=
  let name := Text.encode f.name.toList
  name ++ zeros (nameRoom - name.length) ++ f.kind.code :: (zeros 4 ++
    f.length :: f.decimals :: zeros 14)

/-- The mark of the format. -/
def formatMark : UInt8 := 0x03

/-- The mark of the end of the file. -/
def endMark : UInt8 := 0x1A

/-- A number of years that fits a byte. -/
def yearByte (year : Int) : UInt8 :=
  if 1900 ≤ year ∧ year ≤ 2155 then UInt8.ofNat (year - 1900).toNat else 255

/-- The header of a table with so many records, with the day of its last change. -/
def header (changed : Date) (fields : List Field) (count : Nat) : List UInt8 :=
  formatMark :: yearByte changed.year :: UInt8.ofNat changed.month :: UInt8.ofNat changed.day ::
    (littleEndian 4 count ++ littleEndian 2 (headerLength fields) ++
      littleEndian 2 (recordLength fields) ++ zeros 20 ++ fields.flatMap Field.block ++
      [terminator])

/-- The cells of a row, one after the other. -/
def writeCells (index : Nat) : List Field → List Value → Except WriteProblem (List UInt8)
  | f :: fields, v :: values =>
    match f.encode v with
    | .error problem => .error (.cell index f.name problem)
    | .ok cell => (writeCells index fields values).map (cell ++ ·)
  | _, _ => .ok []

/-- The record of a row. -/
def writeRecord (fields : List Field) (index : Nat) (row : List Value) :
    Except WriteProblem (List UInt8) :=
  if row.length ≠ fields.length then .error (.rowWidth index row.length fields.length)
  else (writeCells index fields row).map (liveFlag :: ·)

/-- The records of rows, the first one at a position. -/
def writeRecords (fields : List Field) : Nat → List (List Value) → Except WriteProblem (List UInt8)
  | _, [] => .ok []
  | index, row :: r =>
    match writeRecord fields index row with
    | .error problem => .error problem
    | .ok record => (writeRecords fields (index + 1) r).map (record ++ ·)

/-- The bytes of a table that was changed last on a day. -/
def toBytes (changed : Date) (t : Table) : Except WriteProblem (List UInt8) :=
  match layoutProblem? t.fields t.rows.length with
  | some problem => .error problem
  | none =>
    (writeRecords t.fields 0 t.rows).map fun records =>
      header changed t.fields t.rows.length ++ (records ++ [endMark])

/-- The bytes of a table, or the error for its callers. -/
def encode (changed : Date) (t : Table) : Except Error (List UInt8) :=
  match toBytes changed t with
  | .ok bytes => .ok bytes
  | .error problem => .error (.schema problem.message)

end TableAccess.Dbase
