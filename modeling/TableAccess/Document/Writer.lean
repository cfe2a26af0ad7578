import TableAccess.Document.Basic
import TableAccess.Json.Printer

/-!
# Writing document databases

The document has the format version first and then one member for each table.  Dates become
texts, and numbers that are not finite become null, since JSON knows neither.
-/

namespace TableAccess.Document

/-- The version of the format, which the writer puts in front. -/
def formatVersion : Nat := 1

/-- A cell as a JSON scalar. -/
def cellJson : Value → Json
  | .null => .null
  | .integer i => .ofInt i.toInt
  | .float x => .ofFloat x
  | .text s => .string s
  | .date d => .string (String.ofList d.text)

/-- The body of a table. -/
def bodyJson (t : Table) : Json :=
  .object
    [ ("columns", .array (t.columns.map .string)),
      ("rows", .array (t.rows.map fun row => .array (row.map cellJson))) ]

/-- The document of a database. -/
def toJson (db : Database) : Json :=
  .object (Json.ofEntries
    (("$version", .ofInt formatVersion) :: db.tables.map fun t => (t.name, bodyJson t)))

/-- The text of a document, in lines. -/
def text (db : Database) : String := String.ofList (toJson db).pretty

/-- The bytes of a document. -/
def bytes (db : Database) : List UInt8 := (text db).toUTF8.toList

end TableAccess.Document
