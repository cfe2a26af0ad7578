import TableAccess.Event
import TableAccess.Row
import TableAccess.Server.Dialect

/-!
# Connections to servers

A connection lives until the server hangs up.  On a dead connection every statement fails without
reaching the server.
-/

namespace TableAccess.Server

/-- A connection. -/
structure Link where
  isAlive : Bool
deriving DecidableEq

/-- What a statement fetches. -/
inductive Fetched where
  | rows (columns : List (String × String)) (rows : List (List Cell))
  /-- The parameters as a row. -/
  | parameters (values : List Value)

/-- The failure of whatever is done on a dead connection. -/
def deadFailure : Sql.Failure :=
  .client "error communicating with database: Broken pipe (os error 32)"

/-- The failure of connecting where nobody listens. -/
def refusedFailure : Sql.Failure :=
  .client "error communicating with database: Connection refused (os error 111)"

/-- Connect and log in. -/
def connect (d : Dialect) (server : Server) : Except Sql.Failure Link :=
  if server.isDown then .error refusedFailure
  else match server.loginFailure with
    | some report => .error (d.failure report)
    | none => .ok ⟨true⟩

/-- Ask for the answer to a statement. -/
def ask (d : Dialect) (server : Server) (link : Link) (statement : String)
    (parameters : List Value) : Except Sql.Failure Fetched × Link :=
  match d.parameterFailure? 1 parameters with
  | some failure => (.error failure, link)
  | none =>
    if link.isAlive then
      match server.answer statement with
      | .rows columns rows => (.ok (.rows columns rows), link)
      | .parameters => (.ok (.parameters parameters), link)
      | .failure report => (.error (d.failure report), link)
      | .hangup => (.error d.hangupFailure, ⟨false⟩)
    else (.error deadFailure, link)

/-- What the server is told when it is asked for the answer to a statement: nothing if a parameter
cannot be sent. -/
def askContacts (d : Dialect) (statement : String) (parameters : List Value) : List Contact :=
  match d.parameterFailure? 1 parameters with
  | some _ => []
  | none => [.statement statement]

/-- The failure when the name of a table is missing. -/
def missingNameFailure : Sql.Failure :=
  .client
    "error occurred while decoding column 0: unexpected null; try decoding as an \x60Option\x60"

/-- The names, if none is missing. -/
def allNames : List (Option String) → Except Sql.Failure (List String)
  | [] => .ok []
  | none :: _ => .error missingNameFailure
  | some name :: r => (allNames r).map (name :: ·)

/-- Ask for the names of the tables. -/
def askTables (d : Dialect) (server : Server) (link : Link) : Except Sql.Failure (List String) :=
  if link.isAlive then
    match server.tables with
    | .ok names => allNames names
    | .error report => .error (d.failure report)
  else .error deadFailure

/-- Names of parameters from a position on. -/
def parameterNames (position : Nat) : List Value → List String
  | [] => []
  | _ :: r => ("p" ++ toString position) :: parameterNames (position + 1) r

/-- The event for a cell that cannot be read. -/
def unreadableEvent (d : Dialect) (typeName : String) (index : Nat) : Event :=
  .debug ("undecodable " ++ d.name ++ " value")
    [("type_name", .text typeName), ("index", .count index)]

/-- The events for the cells of a row that cannot be read, from an index on. -/
def unreadableEvents (d : Dialect) (index : Nat) :
    List (String × String) → List Cell → List Event
  | (_, typeName) :: columns, cell :: cells =>
    let rest := unreadableEvents d (index + 1) columns cells
    if d.isUnreadable typeName cell then unreadableEvent d typeName index :: rest else rest
  | _, _ => []

/-- The values of a row. -/
def rowValues (d : Dialect) (columns : List (String × String)) (cells : List Cell) : List Value :=
  List.zipWith (fun column cell => d.value column.2 cell) columns cells

namespace Fetched

def columns : Fetched → List String
  | .rows cs _ => cs.map Prod.fst
  | .parameters values => parameterNames 1 values

/-- The values of all rows. -/
def result (d : Dialect) (f : Fetched) : Result :=
  match f with
  | .rows cs rs => ⟨f.columns, rs.map fun cells => .ofColumns f.columns (rowValues d cs cells)⟩
  | .parameters values => ⟨f.columns, [.ofColumns f.columns values]⟩

/-- The events that reading the rows leaves. -/
def events (d : Dialect) : Fetched → List Event
  | .rows cs rs => rs.flatMap (unreadableEvents d 0 cs)
  | .parameters _ => []

end Fetched

end TableAccess.Server
