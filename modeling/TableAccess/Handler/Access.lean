import TableAccess.Handler.Engine

/-!
# Databases without an engine

Files of one backend are recognised, but there is no engine that could open them.  So no session
is ever started, and what would be asked of a session needs no answer.
-/

namespace TableAccess.Access

/-- A session, of which there is none. -/
abbrev Session : Type := Empty

/-- The message for a file that cannot be opened. -/
def unavailableMessage (path : String) : String :=
  "cannot open Access database " ++ path ++
    ": ODBC support is not compiled in (enable the \x60odbc\x60 feature)"

/-- Starting a session always fails. -/
def start (path : String) (w : World) : Started Session :=
  if w.files.isFile path then
    let e := Error.connection (unavailableMessage path)
    ⟨.error e, w.files, [.error "Access connection failed" [("error", .text e.message)]], []⟩
  else
    ⟨.error (.connection ("Access database not found: " ++ path)), w.files,
      [.error "Access file not found" [("path", .text path)]], []⟩

/-- The engine that cannot start a session. -/
def engine (path : String) : Engine Session where
  start := start path
  finish := fun s => nomatch s
  farewell := fun s => nomatch s
  tables := fun _ s => nomatch s
  query := fun _ s => nomatch s
  selectAll := fun _ s => nomatch s

end TableAccess.Access
