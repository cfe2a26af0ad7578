import TableAccess.Number.Binary64
import TableAccess.Text.Ascii

/-!
# Stores of the SQL file format

A store holds tables of cells and views of tables.  A cell has one of five storage classes; the
declared type of a column is only a text.  Names match regardless of the case of Latin letters.
-/

namespace TableAccess.Sqlite

open TableAccess.Number (Binary64)

/-- A cell by its storage class. -/
inductive Cell where
  | null
  | integer (i : Int64)
  | real (x : Binary64)
  | text (s : String)
  | blob (bytes : List UInt8)
deriving DecidableEq

/-- A floating point cell; one that is no number is stored as null. -/
def Cell.ofFloat (x : Binary64) : Cell := if x.isNan then .null else .real x

/-- A column with its declared type, which may be empty. -/
structure Column where
  name : String
  declared : String
deriving DecidableEq

structure Table where
  name : String
  columns : List Column
  rows : List (List Cell)
deriving DecidableEq

/-- All rows of another table or view under a name of its own. -/
structure View where
  name : String
  source : String
deriving DecidableEq

/-- The content of a store. -/
structure Store where
  tables : List Table
  views : List View
deriving DecidableEq

/-- The names match. -/
def sameName (a b : String) : Bool := Text.sameIgnoringCase a.toList b.toList

namespace Store

def empty : Store := ⟨[], []⟩

def table? (s : Store) (name : String) : Option Table := s.tables.find? fun t => sameName t.name name

def view? (s : Store) (name : String) : Option View := s.views.find? fun v => sameName v.name name

/-- The table behind a name, through at most `fuel` views. -/
def source? (s : Store) : Nat → String → Option Table
  | 0, name => s.table? name
  | fuel + 1, name =>
    match s.table? name with
    | some t => some t
    | none => (s.view? name).bind fun v => source? s fuel v.source

/-- The table whose columns and rows a name stands for. -/
def relation? (s : Store) (name : String) : Option Table := s.source? s.views.length name

/-- The store with all rows of a table removed. -/
def clear (s : Store) (name : String) : Store :=
  { s with tables := s.tables.map fun t => if sameName t.name name then { t with rows := [] } else t }

end Store

/-- The first bytes of every store file. -/
def magic : List UInt8 := ("SQLite format 3".toUTF8.toList ++ [0])

end TableAccess.Sqlite
