import TableAccess.Document.Basic
import TableAccess.Query

/-!
# Cursors

A cursor walks over the rows of one table at a time.  It remembers the table and how many of its
rows have been returned; what it returns next is the rest of the rows.  A failing selection
leaves the cursor as it is.
-/

namespace TableAccess

/-- The selected table and the number of rows returned. -/
structure Selection where
  table : Table
  position : Nat
deriving DecidableEq

/-- The rows still to come. -/
def Selection.remaining (s : Selection) : List Row := s.table.rowList.drop s.position

/-- A cursor over a database, with the current selection. -/
structure Cursor where
  database : Database
  selection : Option Selection
deriving DecidableEq

namespace Cursor

/-- What a caller can see of the progress of a cursor. -/
inductive State where
  /-- No table has been selected. -/
  | idle
  /-- Rows remain. -/
  | executed
  /-- Every row has been returned. -/
  | exhausted
deriving DecidableEq

def State.name : State → String
  | .idle => "Idle"
  | .executed => "Executed"
  | .exhausted => "Exhausted"

/-- A cursor that has selected nothing. -/
def ofDatabase (db : Database) : Cursor := ⟨db, none⟩

def state (c : Cursor) : State :=
  match c.selection with
  | none => .idle
  | some s => if s.table.rows.length ≤ s.position then .exhausted else .executed

/-- The columns of the selected table. -/
def columns? (c : Cursor) : Option (List String) := c.selection.map fun s => s.table.columns

/-- The name of the selected table. -/
def tableName? (c : Cursor) : Option String := c.selection.map fun s => s.table.name

/-- How many rows the selected table has. -/
def rowCount? (c : Cursor) : Option Nat := c.selection.map fun s => s.table.rows.length

/-- Select all rows of a table, from the first one. -/
def selectTable (c : Cursor) (name : String) : Except Error Cursor :=
  match c.database.table? name with
  | some t => .ok { c with selection := some ⟨t, 0⟩ }
  | none => .error (.tableNotFound name)

/-- Select what a query asks for. -/
def execute (c : Cursor) (query : String) : Except Error Cursor :=
  match Query.parse query with
  | .ok name => c.selectTable name
  | .error e => .error e

/-- The next row, if one remains, and the cursor after it. -/
def fetchOne (c : Cursor) : Except Error (Option Row × Cursor) :=
  match c.selection with
  | none => .error .noActiveQuery
  | some s =>
    match s.table.rows[s.position]? with
    | none => .ok (none, c)
    | some values =>
      .ok (some (Row.ofColumns s.table.columns values),
        { c with selection := some { s with position := s.position + 1 } })

/-- All rows that remain, and the cursor at the end. -/
def fetchAll (c : Cursor) : Except Error (List Row × Cursor) :=
  match c.selection with
  | none => .error .noActiveQuery
  | some s =>
    .ok (s.remaining, { c with selection := some { s with position := s.table.rows.length } })

end Cursor

namespace Database

/-- All rows that a query selects; a database in memory takes no parameters. -/
def execute (db : Database) (query : String) (parameters : List Value) :
    Except Error (List Row) :=
  if parameters.isEmpty then do
    let cursor ← (Cursor.ofDatabase db).execute query
    let (rows, _) ← cursor.fetchAll
    .ok rows
  else .error (.unsupportedQuery query "query parameters are not supported by embedded databases")

/-- All rows of a table with its columns. -/
def selectAll (db : Database) (name : String) : Except Error Result := do
  let cursor ← (Cursor.ofDatabase db).selectTable name
  let (rows, _) ← cursor.fetchAll
  .ok ⟨cursor.columns?.getD [], rows⟩

end Database

end TableAccess
