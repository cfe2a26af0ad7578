import TableAccess.Error
import TableAccess.Event
import TableAccess.FileTree
import TableAccess.Row
import TableAccess.Server.Script

/-!
# Engines

An engine is what a backend does with its sessions: how one is started and finished, and what can
be asked of it.  Whatever it does leaves log events, and it may change files and contact a server.
-/

namespace TableAccess

/-- What surrounds the handlers. -/
structure World where
  files : FileTree
  server : Server
  /-- The day on which files are written. -/
  today : Date

/-- What came of starting a session. -/
structure Started (σ : Type) where
  result : Except Error σ
  files : FileTree
  events : List Event
  contacts : List Server.Contact

/-- What came of a question to a session. -/
structure Reply (σ α : Type) where
  result : Except Error α
  session : σ
  files : FileTree
  events : List Event
  contacts : List Server.Contact

/-- What a backend does with its sessions. -/
structure Engine (σ : Type) where
  /-- Start a session. -/
  start : World → Started σ
  /-- The events of finishing a session. -/
  finish : σ → List Event
  /-- What a server is told when a session is finished. -/
  farewell : σ → List Server.Contact
  /-- The names of the tables. -/
  tables : World → σ → Reply σ (List String)
  /-- The rows of a query with parameters. -/
  query : World → σ → String → List Value → Reply σ (List Row)
  /-- A whole table with its columns. -/
  selectAll : World → σ → String → Reply σ Result

end TableAccess
