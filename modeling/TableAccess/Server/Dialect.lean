import TableAccess.Backend
import TableAccess.Server.MySql
import TableAccess.Server.Postgres
import TableAccess.Sql.Failure

/-!
# Dialects of servers

What differs between the servers: how identifiers are quoted, how tables are asked for, how
failures are worded, which parameters can be sent, and how cells become values.
-/

namespace TableAccess.Server

/-- The kind of a server. -/
inductive Dialect where
  | mysql
  | postgres
deriving DecidableEq

namespace Dialect

def backend : Dialect → Backend
  | .mysql => .mysql
  | .postgres => .postgres

def name (d : Dialect) : String := d.backend.name

/-- The port of a server whose record names none. -/
def defaultPort : Dialect → UInt16
  | .mysql => 3306
  | .postgres => 5432

/-- The character around identifiers. -/
def quote : Dialect → Char
  | .mysql => '\x60'
  | .postgres => '"'

/-- The statement for the names of all tables. -/
def tableQuery : Dialect → String
  | .mysql =>
    "\n    SELECT CAST(TABLE_NAME AS CHAR)\n    FROM information_schema.TABLES\n" ++
      "    WHERE TABLE_SCHEMA = DATABASE() AND TABLE_TYPE = 'BASE TABLE'\n" ++
      "    ORDER BY TABLE_NAME\n"
  | .postgres =>
    "\n    SELECT table_name::text\n    FROM information_schema.tables\n" ++
      "    WHERE table_schema = 'public' AND table_type = 'BASE TABLE'\n" ++
      "    ORDER BY table_name\n"

/-- What the client puts in front of the message of a report. -/
def reportLead : Dialect → Report → String
  | .postgres, _ => ""
  | .mysql, r =>
    let number := toString (r.number.getD 0)
    match r.code with
    | some code => number ++ " (" ++ code ++ "): "
    | none => number ++ ": "

/-- The text of a report. -/
def reportText (d : Dialect) (r : Report) : String :=
  "error returned from database: " ++ d.reportLead r ++ r.message

/-- A report as a failure. -/
def failure (d : Dialect) (r : Report) : Sql.Failure :=
  .reported r.code r.message (d.reportText r)

/-- The size of the head of a message, of which nothing arrives when the server hangs up. -/
def headSize : Dialect → Nat
  | .mysql => 4
  | .postgres => 5

/-- The failure when the server hangs up. -/
def hangupFailure (d : Dialect) : Sql.Failure :=
  .client ("error communicating with database: expected to read " ++ toString d.headSize ++
    " bytes, got 0 bytes at EOF")

/-- Why a parameter cannot be sent. -/
def parameterProblem? : Dialect → Value → Option String
  | .mysql, .date day =>
    if 0 ≤ day.year ∧ day.year ≤ 65535 then none
    else some ("NaiveDateTime out of range for Mysql: " ++ String.ofList day.text)
  | _, _ => none

/-- The first parameter that cannot be sent; parameters are counted from one. -/
def parameterFailure? (d : Dialect) (position : Nat) : List Value → Option Sql.Failure
  | [] => none
  | v :: r =>
    match d.parameterProblem? v with
    | some problem =>
      some (.client ("error occurred while encoding a value: Encoding argument $" ++
        toString position ++ " failed: " ++ problem))
    | none => parameterFailure? d (position + 1) r

/-- The value of a cell that is not null. -/
def cellValue? (d : Dialect) (typeName : String) (cell : Cell) : Option Value :=
  match d with
  | .mysql => MySql.cellValue? (.ofName typeName) cell
  | .postgres => Postgres.cellValue? (.ofName typeName) cell

/-- The value of a cell; one that cannot be read is null. -/
def value (d : Dialect) (typeName : String) (cell : Cell) : Value :=
  match cell with
  | .datum .null => .null
  | cell => (d.cellValue? typeName cell).getD .null

/-- The type is one that nothing is known about. -/
def isUnknown (d : Dialect) (typeName : String) : Bool :=
  match d with
  | .mysql => MySql.ColumnType.ofName typeName == .unknown
  | .postgres => Postgres.ColumnType.ofName typeName == .unknown

/-- The cell has a type that nothing is known about and could not be read. -/
def isUnreadable (d : Dialect) (typeName : String) (cell : Cell) : Bool :=
  match cell with
  | .datum .null => false
  | cell => d.isUnknown typeName && (d.cellValue? typeName cell).isNone

end Dialect

end TableAccess.Server
