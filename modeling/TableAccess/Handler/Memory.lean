import TableAccess.Cursor
import TableAccess.Dbase.Database
import TableAccess.Document.File
import TableAccess.Handler.Engine

/-!
# Databases held in memory

Documents and table files are loaded as a whole when a session starts.  The session is the
database itself, so nothing that happens to the file afterwards shows in it.
-/

namespace TableAccess

/-- What differs between the kinds of files that are held in memory. -/
structure MemoryFormat where
  /-- The name of the format. -/
  name : String
  /-- What its files are called. -/
  noun : String
  load : FileTree → String → Except Error Database
  /-- What is told about a database when it has been loaded. -/
  details : String → Database → List (String × FieldValue)
  /-- Listing the tables is an event. -/
  tellsTables : Bool

namespace MemoryFormat

def document : MemoryFormat where
  name := "MVO"
  noun := "MVO database"
  load := Document.load
  details := fun _ db => [("tables", .count db.size)]
  tellsTables := true

def dbase : MemoryFormat where
  name := "dBase"
  noun := "dBase file"
  load := Dbase.loadDatabase
  details := fun path _ => [("table", .text (Dbase.tableName path))]
  tellsTables := false

/-- Load the file. -/
def start (f : MemoryFormat) (path : String) (w : World) : Started Database :=
  match f.load w.files path with
  | .error e =>
    ⟨.error e, w.files,
      [.error ("cannot load " ++ f.noun) [("path", .text path), ("error", .text e.message)]], []⟩
  | .ok db =>
    ⟨.ok db, w.files, [.info ("loaded " ++ f.noun) (("path", .text path) :: f.details path db)], []⟩

/-- The names of the tables. -/
def tables (f : MemoryFormat) (w : World) (db : Database) : Reply Database (List String) :=
  let names := db.tableNames
  let events :=
    if f.tellsTables then [.debug ("listed " ++ f.name ++ " tables") [("count", .count names.length)]]
    else []
  ⟨.ok names, db, w.files, events, []⟩

/-- The rows of a query. -/
def query (f : MemoryFormat) (w : World) (db : Database) (q : String) (parameters : List Value) :
    Reply Database (List Row) :=
  match db.execute q parameters with
  | .error e =>
    ⟨.error e, db, w.files,
      [.warn (f.name ++ " query failed") [("query", .text q), ("error", .text e.message)]], []⟩
  | .ok rows =>
    ⟨.ok rows, db, w.files,
      [.debug ("executed " ++ f.name ++ " query")
        [("query", .text q), ("rows", .count rows.length)]], []⟩

/-- The engine of the files of a format. -/
def engine (f : MemoryFormat) (path : String) : Engine Database where
  start := f.start path
  finish := fun _ => [.info ("closed " ++ f.noun) [("path", .text path)]]
  farewell := fun _ => []
  tables := f.tables
  query := f.query
  selectAll := fun w db table => ⟨db.selectAll table, db, w.files, [], []⟩

end MemoryFormat

end TableAccess
