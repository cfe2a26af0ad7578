import TableAccess.Dbase.File
import TableAccess.Document.File
import TableAccess.Event
import TableAccess.Sqlite.Execution

/-!
# Sample databases

Small databases to try the handlers on: a document and a store with employees and departments,
and a table file with employees.
-/

namespace TableAccess

/-- The kinds of files for which there is a sample. -/
inductive Sample where
  | document
  | dbase
  | sqlite
deriving DecidableEq

namespace Sample

open TableAccess.Number (Binary64)

/-- An employee with a department and a salary. -/
structure Employee where
  number : Nat
  firstName : String
  lastName : String
  department : String
  salary : Nat

def employees : List Employee :=
  [ ⟨1, "John", "Doe", "IT", 75000⟩,
    ⟨2, "Jane", "Smith", "HR", 65000⟩,
    ⟨3, "Bob", "Johnson", "Finance", 80000⟩,
    ⟨4, "Alice", "Williams", "IT", 72000⟩,
    ⟨5, "Charlie", "Brown", "HR", 62000⟩ ]

/-- Departments with their numbers, names and places. -/
def departments : List (Nat × String × String) :=
  [ (1, "IT", "Building A - Floor 2"),
    (2, "HR", "Building B - Floor 1"),
    (3, "Finance", "Building A - Floor 3") ]

def employeeColumns : List String := ["EmployeeID", "FirstName", "LastName", "Department", "Salary"]

def departmentColumns : List String := ["DepartmentID", "DepartmentName", "Location"]

/-- A small number as a value. -/
def count (n : Nat) : Value := .integer (.ofNat n)

/-- An amount as a value. -/
def amount (n : Nat) : Value := .float (.ofNat n)

/-- The document. -/
def database : Database :=
  ⟨[ ⟨"Employees", employeeColumns, employees.map fun e =>
        [count e.number, .text e.firstName, .text e.lastName, .text e.department,
          amount e.salary]⟩,
     ⟨"Departments", departmentColumns, departments.map fun (number, name, place) =>
        [count number, .text name, .text place]⟩ ]⟩

/-- The table file. -/
def tableFile : Dbase.Table where
  fields :=
    [ .numeric "empid" 4 0, .character "firstname" 50, .character "lastname" 50,
      .character "position" 50, .numeric "salary" 10 2, .date "hiredate" ]
  rows :=
    [ [count 1, .text "John", .text "Doe", .text "Manager", amount 75000,
        .date ⟨2022, 1, 15, by decide⟩],
      [count 2, .text "Jane", .text "Smith", .text "Developer", amount 65000,
        .date ⟨2022, 3, 20, by decide⟩],
      [count 3, .text "Bob", .text "Johnson", .text "Analyst", amount 60000,
        .date ⟨2022, 5, 10, by decide⟩],
      [count 4, .text "Alice", .text "Williams", .text "Designer", amount 62000,
        .date ⟨2022, 7, 5, by decide⟩],
      [count 5, .text "Charlie", .text "Brown", .text "Tester", amount 58000,
        .date ⟨2022, 9, 12, by decide⟩] ]

/-- The stored cell of a value. -/
def cell : Value → Sqlite.Cell
  | .null => .null
  | .integer i => .integer i
  | .float x => .ofFloat x
  | .text s => .text s
  | .date d => .text (String.ofList d.text)

/-- The stored tables, each with the statement that creates it. -/
def storeTables : List (Sqlite.Table × String) :=
  let types := [["INTEGER", "TEXT", "TEXT", "TEXT", "REAL"], ["INTEGER", "TEXT", "TEXT"]]
  let statements :=
    [ "CREATE TABLE Employees (\n        EmployeeID INTEGER PRIMARY KEY,\n" ++
        "        FirstName TEXT,\n        LastName TEXT,\n        Department TEXT,\n" ++
        "        Salary REAL\n    )",
      "CREATE TABLE Departments (\n        DepartmentID INTEGER PRIMARY KEY,\n" ++
        "        DepartmentName TEXT,\n        Location TEXT\n    )" ]
  let stored := List.zipWith (fun (t : Table) declared =>
    (⟨t.name, List.zipWith Sqlite.Column.mk t.columns declared, t.rows.map (·.map cell)⟩ :
      Sqlite.Table)) database.tables types
  stored.zip statements

/-- Create a table in a store; names of tables and views must be new. -/
def createTable (s : Sqlite.Store) (t : Sqlite.Table) : Except Sql.Failure Sqlite.Store :=
  if (s.table? t.name).isSome then
    .error (Sqlite.failure 1 ("table " ++ t.name ++ " already exists"))
  else if (s.view? t.name).isSome then
    .error (Sqlite.failure 1 ("view " ++ t.name ++ " already exists"))
  else .ok { s with tables := s.tables ++ [t] }

/-- Create tables in a store, all of them or none. -/
def createTables (s : Sqlite.Store) : List (Sqlite.Table × String) → Except Error Sqlite.Store
  | [] => .ok s
  | (t, statement) :: r =>
    match createTable s t with
    | .error e => .error (.query statement e.text)
    | .ok after => createTables after r

/-- A path that stands for a store without a file. -/
def isTransient (path : String) : Bool := path.isEmpty || path == ":memory:"

/-- The failure when a file can be neither opened nor created. -/
def cannotOpen (path : String) : Error :=
  .connection ("cannot create SQLite database " ++ path ++ ": " ++ Sqlite.cannotOpenFailure.text)

/-- Write the stored tables into a file, in addition to what it holds. -/
def saveStore (files : FileTree) (path : String) : Except Error FileTree :=
  if isTransient path then .ok files
  else
    match files.target path with
    | .error _ => .error (cannotOpen path)
    | .ok place =>
      let stored :=
        match files.node? place with
        | some (.file content) => content.toStore?
        | _ => some .empty
      match stored with
      | none =>
        .error (.query ((storeTables.head?.map Prod.snd).getD "") Sqlite.notStoreFailure.text)
      | some store => (createTables store storeTables).map fun after =>
          files.set place (.file (.store after))

/-- Write a sample into a file. -/
def save (sample : Sample) (files : FileTree) (today : Date) (path : String) :
    Except Error FileTree :=
  match sample with
  | .document => Document.save files path database
  | .dbase => Dbase.save files path today tableFile
  | .sqlite => saveStore files path

/-- What the created sample is called. -/
def noun : Sample → String
  | .document => "MVO database"
  | .dbase => "dBase table"
  | .sqlite => "SQLite database"

/-- The event of a created sample. -/
def createdEvent (sample : Sample) (path : String) : Event :=
  .info ("created sample " ++ sample.noun) [("path", .text path)]

end Sample

end TableAccess
