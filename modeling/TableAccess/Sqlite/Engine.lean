import TableAccess.Handler.Engine
import TableAccess.Sql.Identifier
import TableAccess.Sqlite.Execution

/-!
# Stores in files

A session looks into its file at every question, so it sees what others have written there in the
meantime.  If the file is gone, it goes on with what it saw last.  A session is only started on a
file that is there, and no question creates one.
-/

namespace TableAccess.Sqlite

/-- A session: what it saw last of the store. -/
structure Session where
  seen : Store
deriving DecidableEq

/-- The store that a session finds. -/
def Session.current (s : Session) (files : FileTree) (path : String) : Except Sql.Failure Store :=
  match files.read path with
  | .error _ => .ok s.seen
  | .ok content =>
    match content.toStore? with
    | some store => .ok store
    | none => .error notStoreFailure

/-- The files after a store has changed; a file that is gone stays away. -/
def writeBack (files : FileTree) (path : String) (before after : Store) : FileTree :=
  if before = after then files
  else
    match files.find path with
    | .ok (place, .file _) => files.set place (.file (.store after))
    | _ => files

/-- What a statement selects, with the session and the files after it. -/
def run (files : FileTree) (path : String) (s : Session) (statement : String)
    (parameters : List Value) : Except Sql.Failure Result × Session × FileTree :=
  match s.current files path with
  | .error e => (.error e, s, files)
  | .ok store =>
    let (result, after) := execute store statement parameters
    (result, ⟨after⟩, writeBack files path store after)

/-- The statement for the names of all tables. -/
def tableQuery : String :=
  "\n    SELECT name\n    FROM sqlite_master\n" ++
    "    WHERE type = 'table' AND name NOT LIKE 'sqlite_%'\n    ORDER BY name\n"

/-- Open a file.  One that is missing is created if that is asked for. -/
def openFile (createMissing : Bool) (files : FileTree) (path : String) :
    Except Sql.Failure Content × FileTree :=
  match files.read path with
  | .ok content => (.ok content, files)
  | .error _ =>
    if createMissing then
      match files.write path (.bytes []) with
      | .ok after => (.ok (.bytes []), after)
      | .error _ => (.error cannotOpenFailure, files)
    else (.error cannotOpenFailure, files)

/-- Start a session on a file that is there. -/
def start (path : String) (w : World) : Started Session :=
  if w.files.isFile path then
    match openFile false w.files path with
    | (.error e, files) =>
      ⟨.error (.connection ("cannot open SQLite database " ++ path ++ ": " ++ e.text)), files,
        [], []⟩
    | (.ok content, files) =>
      -- the engine looks into a file only when it is asked something
      match content.toStore? with
      | none => ⟨.error (.corrupt path notStoreFailure.text), files, [], []⟩
      | some store =>
        ⟨.ok ⟨store⟩, files, [.info "connected to SQLite database" [("path", .text path)]], []⟩
  else
    ⟨.error (.connection ("SQLite database not found: " ++ path)), w.files,
      [.error "SQLite file not found" [("path", .text path)]], []⟩

/-- The names of the tables. -/
def askTables (path : String) (w : World) (s : Session) : Reply Session (List String) :=
  match s.current w.files path with
  | .error e => ⟨.error (e.toError tableQuery), s, w.files, [], []⟩
  | .ok store =>
    let names := tableNames store
    ⟨.ok names, ⟨store⟩, w.files,
      [.debug "listed SQLite tables" [("count", .count names.length)]], []⟩

/-- The rows of a query. -/
def askQuery (path : String) (w : World) (s : Session) (q : String) (parameters : List Value) :
    Reply Session (List Row) :=
  match run w.files path s q parameters with
  | (.error e, s, files) =>
    ⟨.error (e.toError q), s, files,
      [.warn "SQLite query failed" [("query", .text q), ("error", .text e.text)]], []⟩
  | (.ok result, s, files) =>
    ⟨.ok result.rows, s, files,
      [.debug "executed SQLite query" [("query", .text q), ("rows", .count result.rows.length)]],
      []⟩

/-- A whole table. -/
def askAll (path : String) (w : World) (s : Session) (table : String) : Reply Session Result :=
  let q := Sql.selectAllFrom '"' table
  match run w.files path s q [] with
  | (.error e, s, files) => ⟨.error (e.toError q), s, files, [], []⟩
  | (.ok result, s, files) => ⟨.ok result, s, files, [], []⟩

/-- The engine of a store in a file. -/
def engine (path : String) : Engine Session where
  start := start path
  finish := fun _ => [.info "closed SQLite database" [("path", .text path)]]
  farewell := fun _ => []
  tables := askTables path
  query := askQuery path
  selectAll := askAll path

end TableAccess.Sqlite
