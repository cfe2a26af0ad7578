import TableAccess.Document.Basic
import TableAccess.Json.Parser
import TableAccess.Json.Printer

/-!
# Reading document databases

A document is a JSON object that maps table names to objects with the columns and rows of the
table.  Members whose name starts with a dollar sign are metadata and are not looked at.  Cells
are scalars: truth values become the numbers one and zero, and a number that is no signed 64-bit
one becomes a floating point number.
-/

namespace TableAccess.Document

open TableAccess.Number (Binary64)

/-- What is wrong with the body of a table. -/
inductive TableProblem where
  | notObject
  | noColumns
  | columnsNotArray
  | columnName (found : String)
  | repeatedColumn (column : String)
  | rowsNotArray
  | rowNotArray (index : Nat)
  | rowWidth (index width columns : Nat)
  | nestedCell (index : Nat)
deriving DecidableEq

def TableProblem.message : TableProblem → String
  | .notObject => "expected an object with 'columns' and 'rows'"
  | .noColumns => "missing 'columns'"
  | .columnsNotArray => "'columns' must be an array"
  | .columnName found => "column names must be strings, found " ++ found
  | .repeatedColumn column => "duplicate column '" ++ column ++ "'"
  | .rowsNotArray => "'rows' must be an array"
  | .rowNotArray i => "row " ++ toString i ++ " is not an array"
  | .rowWidth i width columns =>
    "row " ++ toString i ++ " has " ++ toString width ++ " values for " ++ toString columns ++
      " columns"
  | .nestedCell i =>
    "row " ++ toString i ++ ": cells must be scalars, found a nested structure"

/-- What is wrong with a document. -/
inductive Problem where
  | malformed
  | notObject
  | table (name : String) (problem : TableProblem)
deriving DecidableEq

def Problem.message : Problem → String
  | .malformed => "invalid MVO document: not a JSON text"
  | .notObject => "top level of an MVO document must be an object"
  | .table name problem => "table '" ++ name ++ "': " ++ problem.message

/-- The value of a scalar. -/
def valueOf? : Json → Option Value
  | .null => some .null
  | .bool b => some (.ofBool b)
  | .number (.integer i) =>
    some (match Number.toInt64? i with
      | some n => .integer n
      | none => .float (.ofInt i))
  | .number (.float x) => some (.float x)
  | .string s => some (.text s)
  | .array _ | .object _ => none

/-- The names of the columns, up to the first item that is no string. -/
def columnNames : List Json → Except TableProblem (List String)
  | [] => .ok []
  | .string s :: r => (columnNames r).map (s :: ·)
  | item :: _ => .error (.columnName (String.ofList item.compact))

/-- The columns of a table body. -/
def columnsOf (body : List (String × Json)) : Except TableProblem (List String) :=
  match Json.find? "columns" body with
  | some (.array items) => columnNames items
  | some _ => .error .columnsNotArray
  | none => .error .noColumns

/-- The rows of a table body; no rows may be given at all. -/
def rowsOf (body : List (String × Json)) : Except TableProblem (List Json) :=
  match Json.find? "rows" body with
  | some (.array items) => .ok items
  | some _ => .error .rowsNotArray
  | none => .ok []

/-- The values of a row at a position. -/
def rowValues (columns index : Nat) : Json → Except TableProblem (List Value)
  | .array cells =>
    if cells.length = columns then
      match cells.mapM valueOf? with
      | some values => .ok values
      | none => .error (.nestedCell index)
    else .error (.rowWidth index cells.length columns)
  | _ => .error (.rowNotArray index)

/-- The values of all rows from a position on. -/
def allRows (columns : Nat) : Nat → List Json → Except TableProblem (List (List Value))
  | _, [] => .ok []
  | index, row :: r =>
    match rowValues columns index row with
    | .ok values => (allRows columns (index + 1) r).map (values :: ·)
    | .error problem => .error problem

/-- The table of a name and a body. -/
def tableOf (name : String) : Json → Except TableProblem Table
  | .object body => do
    let columns ← columnsOf body
    match firstRepeated? [] columns with
    | some column => .error (.repeatedColumn column)
    | none =>
      let items ← rowsOf body
      let rows ← allRows columns.length 0 items
      .ok ⟨name, columns, rows⟩
  | _ => .error .notObject

/-- The tables of the members in order, without the metadata. -/
def tablesOf : List (String × Json) → Except Problem (List Table)
  | [] => .ok []
  | (name, body) :: r =>
    if isMetadataName name then tablesOf r
    else match tableOf name body with
      | .ok t => (tablesOf r).map (t :: ·)
      | .error problem => .error (.table name problem)

/-- The database of a JSON value. -/
def ofJson : Json → Except Problem Database
  | .object members => (tablesOf members).map Database.mk
  | _ => .error .notObject

/-- The database of the bytes of a document. -/
def ofBytes (bytes : List UInt8) : Except Problem Database :=
  match Json.ofBytes? bytes with
  | some json => ofJson json
  | none => .error .malformed

/-- The database of a document; a problem is reported with the path it came from. -/
def parse (bytes : List UInt8) (origin : String) : Except Error Database :=
  match ofBytes bytes with
  | .ok db => .ok db
  | .error problem => .error (.corrupt origin problem.message)

end TableAccess.Document
