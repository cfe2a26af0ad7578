import TableAccess.Error
import TableAccess.Row

/-!
# Databases in memory

A database is a list of tables in the order in which they were added.  A table has a name, a list
of columns and rows of values aligned to it.  Adding a table checks its name, its columns and the
width of its rows; names that start with a dollar sign are kept for metadata.
-/

namespace TableAccess

/-- A table of a database in memory. -/
structure Table where
  name : String
  columns : List String
  rows : List (List Value)
deriving DecidableEq

/-- The first text of the list that is among `seen` or equals an earlier one. -/
def firstRepeated? (seen : List String) : List String → Option String
  | [] => none
  | c :: r => if seen.contains c then some c else firstRepeated? (c :: seen) r

/-- The first row whose width is not the number of columns, with its position and width. -/
def firstMisfit? (width : Nat) (index : Nat) : List (List α) → Option (Nat × Nat)
  | [] => none
  | row :: r => if row.length = width then firstMisfit? width (index + 1) r
    else some (index, row.length)

/-- The name is kept for metadata. -/
def isMetadataName (name : String) : Bool := name.toList.head? == some '$'

namespace Table

/-- Every row of the table with its columns. -/
def rowList (t : Table) : List Row := t.rows.map (Row.ofColumns t.columns)

/-- Equality up to that of the values as numbers, texts and dates. -/
def same (t u : Table) : Bool :=
  t.name == u.name && t.columns == u.columns && t.rows.length == u.rows.length &&
    (t.rows.zip u.rows).all fun (r, s) =>
      r.length == s.length && (r.zip s).all fun (v, w) => v.same w

end Table

/-- Tables in the order in which they were added. -/
structure Database where
  tables : List Table
deriving DecidableEq

namespace Database

def empty : Database := ⟨[]⟩

instance : Inhabited Database := ⟨empty⟩

/-- The table of that exact name. -/
def table? (db : Database) (name : String) : Option Table :=
  db.tables.find? fun t => t.name == name

def tableNames (db : Database) : List String := db.tables.map Table.name

def size (db : Database) : Nat := db.tables.length

def isEmpty (db : Database) : Bool := db.tables.isEmpty

/-- Why a table cannot be added. -/
inductive AddProblem where
  | reserved
  | exists
  | repeatedColumn (column : String)
  | rowWidth (index width : Nat)
deriving DecidableEq

/-- What stands in the way of a table. -/
def addProblem? (db : Database) (t : Table) : Option AddProblem :=
  if isMetadataName t.name then some .reserved
  else if (db.table? t.name).isSome then some .exists
  else match firstRepeated? [] t.columns with
    | some column => some (.repeatedColumn column)
    | none => (firstMisfit? t.columns.length 0 t.rows).map fun (i, width) => .rowWidth i width

/-- The wording of a problem with a table. -/
def AddProblem.message (t : Table) : AddProblem → String
  | .reserved => "table name '" ++ t.name ++ "' is reserved for metadata"
  | .exists => "table '" ++ t.name ++ "' already exists"
  | .repeatedColumn column => "duplicate column '" ++ column ++ "' in table '" ++ t.name ++ "'"
  | .rowWidth i width =>
    "row " ++ toString i ++ " of table '" ++ t.name ++ "' has " ++ toString width ++
      " values for " ++ toString t.columns.length ++ " columns"

/-- Add a table at the end, or say why not. -/
def addTable (db : Database) (t : Table) : Except Error Database :=
  match db.addProblem? t with
  | some problem => .error (.schema (problem.message t))
  | none => .ok ⟨db.tables ++ [t]⟩

/-- The database after an attempt to add a table; a refused one leaves it as it is. -/
def afterAdding (db : Database) (t : Table) : Database := (db.addTable t).toOption.getD db

/-- The tables have names of their own, none kept for metadata, columns of their own, and rows as
wide as their columns. -/
structure WellFormed (db : Database) : Prop where
  names : db.tableNames.Nodup
  noMetadata : ∀ t ∈ db.tables, isMetadataName t.name = false
  columns : ∀ t ∈ db.tables, t.columns.Nodup
  widths : ∀ t ∈ db.tables, ∀ row ∈ t.rows, row.length = t.columns.length

theorem wellFormed_empty : empty.WellFormed :=
  ⟨by simp [empty, tableNames], by simp [empty], by simp [empty], by simp [empty]⟩

/-- Equality of databases up to that of the values. -/
def same (db other : Database) : Bool :=
  db.tables.length == other.tables.length &&
    (db.tables.zip other.tables).all fun (t, u) => t.same u

end Database

end TableAccess
