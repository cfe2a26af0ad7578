import TableAccess.Value

/-!
# Tables of fixed-width records

A table file describes its columns by fields: a name, a kind, a width in bytes and a number of
decimals.  The kind says how the bytes of a cell are to be understood.
-/

namespace TableAccess.Dbase

/-- How the bytes of a cell are understood. -/
inductive FieldKind where
  /-- Text, filled up with spaces. -/
  | character
  /-- Digits; without decimals a whole number. -/
  | numeric
  /-- Digits of a floating point number. -/
  | float
  /-- Year, month and day in eight digits. -/
  | date
  /-- One letter for true, false or unknown. -/
  | logical
  /-- Four bytes of a signed number. -/
  | integer
  /-- A kind of which only the code is known; its cells are read as text. -/
  | other (code : UInt8)
deriving DecidableEq

namespace FieldKind

/-- The kind of a code. -/
def ofCode (code : UInt8) : FieldKind :=
  match code.toNat with
  | 67 => .character
  | 78 => .numeric
  | 70 => .float
  | 68 => .date
  | 76 => .logical
  | 73 => .integer
  | _ => .other code

/-- The code of a kind. -/
def code : FieldKind → UInt8
  | .character => 67
  | .numeric => 78
  | .float => 70
  | .date => 68
  | .logical => 76
  | .integer => 73
  | .other code => code

end FieldKind

/-- A column of a table file. -/
structure Field where
  name : String
  kind : FieldKind
  length : UInt8
  decimals : UInt8
deriving DecidableEq

namespace Field

def character (name : String) (length : UInt8) : Field := ⟨name, .character, length, 0⟩

def numeric (name : String) (length decimals : UInt8) : Field := ⟨name, .numeric, length, decimals⟩

def date (name : String) : Field := ⟨name, .date, 8, 0⟩

def logical (name : String) : Field := ⟨name, .logical, 1, 0⟩

def integer (name : String) : Field := ⟨name, .integer, 4, 0⟩

/-- The width of a cell in bytes. -/
def width (f : Field) : Nat := f.length.toNat

end Field

/-- The fields of a table file and its rows, each with one value a field. -/
structure Table where
  fields : List Field
  rows : List (List Value)
deriving DecidableEq

/-- The names of the columns. -/
def Table.columns (t : Table) : List String := t.fields.map Field.name

/-- The widths of all cells of a record together. -/
def cellsWidth : List Field → Nat
  | [] => 0
  | f :: r => f.width + cellsWidth r

/-- The size of a record: a flag byte and the cells. -/
def recordLength (fields : List Field) : Nat := 1 + cellsWidth fields

/-- The size of the fixed part of the header, and of the description of a field. -/
def blockLength : Nat := 32

/-- The room for the name of a field, with at least one zero byte after it in what is written. -/
def nameRoom : Nat := 11

/-- The byte after the last field. -/
def terminator : UInt8 := 0x0D

/-- The flag of a deleted record. -/
def deletedFlag : UInt8 := 0x2A

/-- The flag of a record that is not deleted; also what fills up cells. -/
def liveFlag : UInt8 := 0x20

end TableAccess.Dbase
