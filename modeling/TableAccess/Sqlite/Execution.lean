import TableAccess.Sql.Failure
import TableAccess.Sqlite.Statement
import TableAccess.Sqlite.Value

/-!
# Executing statements on stores

Every failure carries a number; reading never changes a store.
-/

namespace TableAccess.Sqlite

open TableAccess.Number (Binary64)

/-- A failure with its number. -/
def failure (code : Nat) (message : String) : Sql.Failure :=
  .reported (some (toString code)) message
    ("error returned from database: (code: " ++ toString code ++ ") " ++ message)

/-- The failure for a file that is no store. -/
def notStoreFailure : Sql.Failure := failure 26 "file is not a database"

/-- The failure when a file can be neither opened nor created. -/
def cannotOpenFailure : Sql.Failure := failure 14 "unable to open database file"

def noTableFailure (name : String) : Sql.Failure := failure 1 ("no such table: " ++ name)

def noColumnFailure (name : String) : Sql.Failure := failure 1 ("no such column: " ++ name)

/-- All rows of a table or view. -/
def selectAll (s : Store) (table : String) : Except Sql.Failure Result :=
  match s.relation? table with
  | some t => .ok t.result
  | none => .error (noTableFailure table)

/-- One column of a table or view. -/
def selectColumn (s : Store) (column table : String) : Except Sql.Failure Result :=
  match s.relation? table with
  | none => .error (noTableFailure table)
  | some t =>
    match t.columns.findIdx? fun c => sameName c.name column with
    | none => .error (noColumnFailure column)
    | some i =>
      let columns := (t.columns.drop i).take 1
      let rows := t.rows.map fun row => (row.drop i).take 1
      .ok (Table.result ⟨t.name, columns, rows⟩)

/-- A parameter as it comes back: dates are stored as texts, and what is no number as null. -/
def parameterValue : Value → Value
  | .date d => .text (String.ofList d.text)
  | .float x => if x.isNan then .null else .float x
  | v => v

/-- A row of parameters; those that are not given are null. -/
def selectParameters (parameters : List Value) (items : List (Nat × String)) : Result :=
  let columns := items.map Prod.snd
  let values := items.map fun item => parameterValue (parameters.getD (item.1 - 1) .null)
  ⟨columns, [.ofColumns columns values]⟩

/-- Remove all rows of a table. -/
def clearTable (s : Store) (table : String) : Except Sql.Failure Store :=
  if (s.table? table).isSome then .ok (s.clear table)
  else if (s.view? table).isSome then
    .error (failure 1 ("cannot modify " ++ table ++ " because it is a view"))
  else .error (noTableFailure table)

/-- What a statement selects, and the store after it. -/
def execute (s : Store) (statement : String) (parameters : List Value) :
    Except Sql.Failure Result × Store :=
  match Statement.read statement with
  | .error problem => (.error (failure 1 problem.message), s)
  | .ok .nothing => (.ok ⟨[], []⟩, s)
  | .ok (.all table) => (selectAll s table, s)
  | .ok (.column column table) => (selectColumn s column table, s)
  | .ok (.parameters items) => (.ok (selectParameters parameters items), s)
  | .ok (.clear table) =>
    match clearTable s table with
    | .ok after => (.ok ⟨[], []⟩, after)
    | .error e => (.error e, s)

/-- A name that the engine keeps for itself: six given letters in any case and at least one
character more. -/
def isReserved (name : String) : Bool :=
  sameName (String.ofList (name.toList.take 6)) "sqlite" && 7 ≤ name.length

/-- The names of the tables that are not reserved, in ascending order. -/
def tableNames (s : Store) : List String :=
  ((s.tables.map Table.name).filter fun name => !isReserved name).mergeSort fun a b => decide (a ≤ b)

end TableAccess.Sqlite
