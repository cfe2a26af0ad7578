import TableAccess.Connection.Record
import TableAccess.Date.Basic
import TableAccess.Number.Binary64
import TableAccess.Server.Numeric

/-!
# Servers

What a server is told, and what it answers to a login, to the question for its tables, and to a
statement.  A statement is known by its exact text.  Cells arrive in the forms in which servers
send them.
-/

namespace TableAccess.Server

open TableAccess.Number (Binary64)

/-- A single datum as a server sends it. -/
inductive Datum where
  | null
  | bool (b : Bool)
  | integer (i : Int)
  /-- A number of 32 bits with a floating point. -/
  | single (bits : UInt32)
  | double (x : Binary64)
  | numeric (n : Numeric)
  | bytes (bytes : List UInt8)
  | date (d : Date)
  /-- Microseconds since midnight, with a sign. -/
  | time (us : Int)
  /-- A day and microseconds since its midnight. -/
  | moment (d : Date) (us : Nat)
  /-- Year, month and day, which need not exist, and microseconds since midnight.  Without parts
  it is the zero date. -/
  | calendar (parts : Option (Nat × Nat × Nat)) (us : Nat)
deriving DecidableEq

/-- A cell: a datum, or an array of data with a number of dimensions and a first index. -/
inductive Cell where
  | datum (d : Datum)
  | array (dimensions : Nat) (first : Int) (items : List Datum)
deriving DecidableEq

/-- A failure that a server reports. -/
structure Report where
  code : Option String
  number : Option Nat
  message : String
deriving DecidableEq

/-- What a server is told, whether or not it hears. -/
inductive Contact where
  | login (parameters : Login)
  | statement (text : String)
  /-- The connection is given up. -/
  | farewell
deriving DecidableEq

/-- What a server answers to a statement. -/
inductive Answer where
  /-- Columns with the names of their types, and rows. -/
  | rows (columns : List (String × String)) (rows : List (List Cell))
  /-- One row of the parameters. -/
  | parameters
  | failure (report : Report)
  /-- The server ends the connection. -/
  | hangup
deriving DecidableEq

end TableAccess.Server

namespace TableAccess

/-- A server. -/
structure Server where
  /-- Nobody listens. -/
  isDown : Bool
  /-- Why a login is refused. -/
  loginFailure : Option Server.Report
  /-- The names of the tables, some of which may be missing. -/
  tables : Except Server.Report (List (Option String))
  /-- The statements that are understood. -/
  statements : List (String × Server.Answer)

namespace Server

/-- No server at all. -/
def absent : Server := ⟨true, none, .ok [], []⟩

instance : Inhabited Server := ⟨absent⟩

/-- The report for every other statement. -/
def unknownStatement : Report := ⟨some "42000", some 1064, "unknown statement"⟩

/-- The answer to a statement. -/
def answer (s : Server) (statement : String) : Answer :=
  (s.statements.lookup statement).getD (.failure unknownStatement)

end Server

end TableAccess
