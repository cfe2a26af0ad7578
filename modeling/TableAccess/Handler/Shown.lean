import TableAccess.Handler.Basic
import TableAccess.Text.Quoted

/-!
# Handlers in diagnostic texts

A handler is shown with its path or the label of its record, and with its session if there is
one.  A password is never part of it.
-/

namespace TableAccess

/-- Texts with commas between them, in square brackets. -/
def shownList (items : List String) : String := "[" ++ String.intercalate ", " items ++ "]"

namespace Table

def shown (t : Table) : String :=
  "Table \x7b name: " ++ Text.quoted t.name ++ ", schema: TableSchema \x7b columns: " ++
    shownList (t.columns.map Text.quoted) ++ " \x7d, rows: " ++
    shownList (t.rows.map fun row => shownList (row.map Value.shown)) ++ " \x7d"

end Table

namespace Database

def shown (db : Database) : String :=
  "EmbeddedDatabase \x7b tables: " ++ shownList (db.tables.map Table.shown) ++ " \x7d"

end Database

namespace Handler

/-- The place to which events go. -/
def shownSink : String := "LogSink \x7b .. \x7d"

/-- A text, if there is one. -/
def shownOption : Option String → String
  | some s => "Some(" ++ s ++ ")"
  | none => "None"

/-- A handler of a database in memory. -/
def shownMemory (name path : String) (session : Option Database) : String :=
  name ++ " \x7b path: " ++ Text.quoted path ++ ", sink: " ++ shownSink ++ ", database: " ++
    shownOption (session.map Database.shown) ++ " \x7d"

/-- A handler with a connection, of which only the kind is shown. -/
def shownConnection (name key target connection : String) (isConnected : Bool) : String :=
  name ++ " \x7b " ++ key ++ ": " ++ Text.quoted target ++ ", conn: " ++
    shownOption (if isConnected then some (Text.quoted connection) else none) ++ " \x7d"

/-- The handler in a diagnostic text. -/
def shown (h : Handler) : String :=
  match h with
  | ⟨.document p, session⟩ => shownMemory "MvoHandler" p session
  | ⟨.dbase p, session⟩ => shownMemory "DbaseHandler" p session
  | ⟨.sqlite p, session⟩ =>
    shownConnection "SqliteHandler" "path" p "<SqliteConnection>" session.isSome
  | ⟨.access p, session⟩ =>
    "AccessHandler \x7b path: " ++ Text.quoted p ++ ", connected: " ++
      toString session.isSome ++ " \x7d"
  | ⟨.server .mysql r, session⟩ =>
    shownConnection "MySqlHandler" "target" r.label "<MySqlConnection>" session.isSome
  | ⟨.server .postgres r, session⟩ =>
    shownConnection "PostgresHandler" "target" r.label "<PgConnection>" session.isSome

end Handler

end TableAccess
