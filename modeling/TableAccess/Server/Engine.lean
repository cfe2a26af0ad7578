import TableAccess.Connection.Record
import TableAccess.Handler.Engine
import TableAccess.Server.Link
import TableAccess.Sql.Identifier

/-!
# Sessions on servers

A session is a connection that was made with the parameters of a record.  A record without the
required parameters is refused before the server is contacted.  Messages and events show the
label of the record, never its password.
-/

namespace TableAccess.Server

namespace Dialect

/-- The parameters with which a server is contacted. -/
def loginContact (d : Dialect) (login : Login) : Contact :=
  .login { login with port := some (login.port.getD d.defaultPort) }

/-- Connect with the parameters of a record. -/
def start (d : Dialect) (record : ConnectionRecord) (w : World) : Started Link :=
  match record.validate with
  | .error e =>
    ⟨.error e, w.files,
      [.error ("invalid " ++ d.name ++ " connection record") [("error", .text e.message)]], []⟩
  | .ok login =>
    match connect d w.server with
    | .error e =>
      ⟨.error (.connection
          ("cannot connect to " ++ d.name ++ " at " ++ record.label ++ ": " ++ e.text)), w.files,
        [.error (d.name ++ " connection failed")
          [("server", .text record.label), ("error", .text e.text)]], [d.loginContact login]⟩
    | .ok link =>
      ⟨.ok link, w.files, [.info ("connected to " ++ d.name) [("server", .text record.label)]],
        [d.loginContact login]⟩

/-- The events of closing a connection; a dead one cannot be closed in order. -/
def finish (d : Dialect) (record : ConnectionRecord) (link : Link) : List Event :=
  let closed := Event.info ("closed " ++ d.name ++ " connection") [("server", .text record.label)]
  if link.isAlive then [closed]
  else
    [.warn ("error while closing " ++ d.name ++ " connection")
      [("error", .text deadFailure.text)], closed]

/-- The names of the tables. -/
def tables (d : Dialect) (w : World) (link : Link) : Reply Link (List String) :=
  let contacts := [Contact.statement d.tableQuery]
  match askTables d w.server link with
  | .error e => ⟨.error (e.toError d.tableQuery), link, w.files, [], contacts⟩
  | .ok names =>
    ⟨.ok names, link, w.files,
      [.debug ("listed " ++ d.name ++ " tables") [("count", .count names.length)]], contacts⟩

/-- The rows of a query. -/
def query (d : Dialect) (w : World) (link : Link) (q : String) (parameters : List Value) :
    Reply Link (List Row) :=
  let contacts := askContacts d q parameters
  match ask d w.server link q parameters with
  | (.error e, link) =>
    ⟨.error (e.toError q), link, w.files,
      [.warn (d.name ++ " query failed") [("query", .text q), ("error", .text e.text)]], contacts⟩
  | (.ok fetched, link) =>
    let rows := (fetched.result d).rows
    ⟨.ok rows, link, w.files,
      fetched.events d ++
        [.debug ("executed " ++ d.name ++ " query")
          [("query", .text q), ("rows", .count rows.length)]], contacts⟩

/-- A whole table. -/
def selectAll (d : Dialect) (w : World) (link : Link) (table : String) : Reply Link Result :=
  let q := Sql.selectAllFrom d.quote table
  let contacts := askContacts d q []
  match ask d w.server link q [] with
  | (.error e, link) => ⟨.error (e.toError q), link, w.files, [], contacts⟩
  | (.ok fetched, link) => ⟨.ok (fetched.result d), link, w.files, fetched.events d, contacts⟩

/-- The engine of a server. -/
def engine (d : Dialect) (record : ConnectionRecord) : Engine Link where
  start := d.start record
  finish := d.finish record
  farewell := fun _ => [.farewell]
  tables := d.tables
  query := d.query
  selectAll := d.selectAll

end Dialect

end TableAccess.Server
