import TableAccess.Dbase.File
import TableAccess.Document.Basic
import TableAccess.Path

/-!
# Table files as databases

A table file holds a single table, which is named after the file without its extension.
-/

namespace TableAccess.Dbase

/-- The name of the table of a file. -/
def tableName (path : String) : String := (Path.stem? path).getD ""

/-- A table file as a table of a database. -/
def Table.toTable (t : Table) (name : String) : TableAccess.Table := ⟨name, t.columns, t.rows⟩

/-- The database of a table file. -/
def loadDatabase (files : FileTree) (path : String) : Except Error Database :=
  match load files path with
  | .error e => .error e
  | .ok t =>
    match Database.empty.addTable (t.toTable (tableName path)) with
    | .error e => .error (.corrupt path e.message)
    | .ok db => .ok db

end TableAccess.Dbase
