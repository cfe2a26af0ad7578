import TableAccess.Json.Fields
import TableAccess.Text.Ascii

/-!
# Backends

The closed set of backends, their names, and what selects one: the extension of a file or the
kind that a connection record names.
-/

namespace TableAccess

/-- A kind of database. -/
inductive Backend where
  | sqlite
  | dbase
  | access
  | document
  | mysql
  | postgres
deriving DecidableEq

namespace Backend

def all : List Backend := [.sqlite, .dbase, .access, .document, .mysql, .postgres]

/-- The name shown to people. -/
def name : Backend → String
  | .sqlite => "SQLite"
  | .dbase => "dBase"
  | .access => "Microsoft Access"
  | .document => "MVO"
  | .mysql => "MySQL"
  | .postgres => "PostgreSQL"

/-- The name in JSON texts. -/
def key : Backend → String
  | .sqlite => "sqlite"
  | .dbase => "dbase"
  | .access => "access"
  | .document => "mvo"
  | .mysql => "mysql"
  | .postgres => "postgresql"

/-- The port of a server that names none; files have no port. -/
def defaultPort? : Backend → Option Nat
  | .mysql => some 3306
  | .postgres => some 5432
  | _ => none

def isFileBased (b : Backend) : Bool := b.defaultPort?.isNone

/-- The extensions of database files and their backends. -/
def extensions : List (String × Backend) :=
  [ ("db", .sqlite), ("dbf", .dbase), ("db3", .dbase), ("mdb", .access), ("accdb", .access),
    ("mvo", .document) ]

/-- The backend of an extension, which must match exactly. -/
def ofExtension? (extension : String) : Option Backend := extensions.lookup extension

/-- The kinds that a connection record may name, in small letters. -/
def kinds : List (String × Backend) :=
  [("mysql", .mysql), ("postgresql", .postgres), ("postgres", .postgres)]

/-- The backend of a kind, in letters of any case. -/
def ofKind? (kind : String) : Option Backend :=
  kinds.lookup (String.ofList (kind.toList.map Text.lowerAscii))

/-- The backend of a JSON text: its name, or an object of its name and null. -/
def ofJsonText? (s : String) : Option Backend :=
  (Json.atEnd? (Json.choiceReader s.toList)).bind fun name => all.find? fun b => b.key == name

end Backend

end TableAccess
