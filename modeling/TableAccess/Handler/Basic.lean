import TableAccess.Connection.Descriptor
import TableAccess.Csv.File
import TableAccess.Handler.Access
import TableAccess.Handler.Memory
import TableAccess.Server.Engine
import TableAccess.Sqlite.Engine

/-!
# Handlers

A handler belongs to a target, a file or a server, and holds a session while it is connected.
Connecting finishes a session that is still held before it starts a new one.  A question to a
handler that is not connected fails, and no question connects or disconnects it.
-/

namespace TableAccess

/-- What a handler is for. -/
inductive Target where
  | document (path : String)
  | dbase (path : String)
  | sqlite (path : String)
  | access (path : String)
  | server (dialect : Server.Dialect) (record : ConnectionRecord)
deriving DecidableEq

namespace Target

def backend : Target → Backend
  | .document _ => .document
  | .dbase _ => .dbase
  | .sqlite _ => .sqlite
  | .access _ => .access
  | .server d _ => d.backend

/-- The target for people. -/
def label : Target → String
  | .document p | .dbase p | .sqlite p | .access p => p
  | .server _ r => r.label

/-- What a session with the target is. -/
def Session : Target → Type
  | .document _ | .dbase _ => Database
  | .sqlite _ => Sqlite.Session
  | .access _ => Access.Session
  | .server _ _ => Server.Link

/-- The engine of the target. -/
def engine : (t : Target) → Engine t.Session
  | .document p => MemoryFormat.document.engine p
  | .dbase p => MemoryFormat.dbase.engine p
  | .sqlite p => Sqlite.engine p
  | .access p => Access.engine p
  | .server d r => d.engine r

/-- Sessions of the target are finished when its handler goes away. -/
def finishesOnDrop : Target → Bool
  | .sqlite _ | .server _ _ => true
  | _ => false

/-- The target of a path with a backend; servers have no path. -/
def ofPath (p : String) : Backend → Except Error Target
  | .document => .ok (.document p)
  | .dbase => .ok (.dbase p)
  | .sqlite => .ok (.sqlite p)
  | .access => .ok (.access p)
  | b => .error (.unsupportedBackend (b.name ++ " cannot be opened from a file path"))

/-- The target of a record with a backend; files have no record. -/
def ofRecord (r : ConnectionRecord) : Backend → Except Error Target
  | .mysql => .ok (.server .mysql r)
  | .postgres => .ok (.server .postgres r)
  | b => .error (.unsupportedBackend (b.name ++ " cannot be opened from a connection record"))

/-- The target of a descriptor. -/
def ofDescriptor (d : Descriptor) : Except Error Target :=
  match d.backend, d with
  | .error e, _ => .error e
  | .ok b, .path p => ofPath p b
  | .ok b, .record r => ofRecord r b

end Target

/-- A target with the session that is held, if any. -/
structure Handler where
  target : Target
  session : Option target.Session

/-- What came of an operation on a handler. -/
structure Outcome (α : Type) where
  result : Except Error α
  handler : Handler
  files : FileTree
  events : List Event
  contacts : List Server.Contact

namespace Handler

/-- A handler without a session. -/
def ofTarget (t : Target) : Handler := ⟨t, none⟩

/-- The handler that a descriptor resolves to, without a session. -/
def ofDescriptor (d : Descriptor) : Except Error Handler := (Target.ofDescriptor d).map ofTarget

def isConnected (h : Handler) : Bool := h.session.isSome

/-- The events of finishing the session that is held. -/
def finishEvents (h : Handler) : List Event :=
  match h.session with
  | some s => h.target.engine.finish s
  | none => []

/-- What a server is told when the session that is held is finished. -/
def farewell (h : Handler) : List Server.Contact :=
  match h.session with
  | some s => h.target.engine.farewell s
  | none => []

/-- Start a session, after finishing one that is held. -/
def connect (h : Handler) (w : World) : Outcome Unit :=
  let started := h.target.engine.start w
  let events := h.finishEvents ++ started.events
  let contacts := h.farewell ++ started.contacts
  match started.result with
  | .ok s => ⟨.ok (), ⟨h.target, some s⟩, started.files, events, contacts⟩
  | .error e => ⟨.error e, ⟨h.target, none⟩, started.files, events, contacts⟩

/-- Finish the session that is held, if any. -/
def close (h : Handler) (w : World) : Outcome Unit :=
  ⟨.ok (), ⟨h.target, none⟩, w.files, h.finishEvents, h.farewell⟩

/-- The events when the handler goes away. -/
def dropEvents (h : Handler) : List Event :=
  if h.target.finishesOnDrop then h.finishEvents else []

/-- Ask the session that is held. -/
def ask (h : Handler) (w : World) (question : h.target.Session → Reply h.target.Session α) :
    Outcome α :=
  match h.session with
  | none => ⟨.error .notConnected, h, w.files, [], []⟩
  | some s =>
    let reply := question s
    ⟨reply.result, ⟨h.target, some reply.session⟩, reply.files, reply.events, reply.contacts⟩

/-- The names of the tables. -/
def tables (h : Handler) (w : World) : Outcome (List String) := h.ask w (h.target.engine.tables w)

/-- The rows of a query with parameters. -/
def query (h : Handler) (w : World) (q : String) (parameters : List Value) : Outcome (List Row) :=
  h.ask w fun s => h.target.engine.query w s q parameters

/-- A whole table with its columns. -/
def selectAll (h : Handler) (w : World) (table : String) : Outcome Result :=
  h.ask w fun s => h.target.engine.selectAll w s table

/-- The event of an export to a table that is not listed. -/
def unknownTableEvent (table : String) : Event :=
  .warn "export requested for unknown table" [("table", .text table)]

/-- The event of an export. -/
def exportedEvent (table path : String) (rows : Nat) : Event :=
  .info "exported table to CSV"
    [("table", .text table), ("rows", .count rows), ("path", .text path)]

/-- Write what was selected into a file. -/
def exportResult (table path : String) (selected : Outcome Result) : Outcome Nat :=
  match selected.result with
  | .error e => { selected with result := .error e }
  | .ok result =>
    match Csv.save selected.files path result with
    | (.error e, files) =>
      ⟨.error e, selected.handler, files, selected.events, selected.contacts⟩
    | (.ok rows, files) =>
      ⟨.ok rows, selected.handler, files, selected.events ++ [exportedEvent table path rows],
        selected.contacts⟩

/-- Write a whole table that is listed into a file.  Gives the number of rows. -/
def exportTable (h : Handler) (w : World) (table path : String) : Outcome Nat :=
  let listed := h.tables w
  match listed.result with
  | .error e => { listed with result := .error e }
  | .ok names =>
    if names.contains table then
      let written := exportResult table path
        (listed.handler.selectAll { w with files := listed.files } table)
      { written with
        events := listed.events ++ written.events
        contacts := listed.contacts ++ written.contacts }
    else
      { listed with
        result := .error (.tableNotFound table)
        events := listed.events ++ [unknownTableEvent table] }

end Handler

end TableAccess
