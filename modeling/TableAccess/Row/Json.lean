import TableAccess.Date.Reader
import TableAccess.Json.Fields
import TableAccess.Json.Printer
import TableAccess.Row

/-!
# Values and rows as JSON

A value is a record of the name of its kind and, unless it is null, its content.  A row is a
record of its cells, a cell a record of column and value.  Reading is tolerant of the order of
keys and of unknown keys, but every key may come only once.
-/

namespace TableAccess

open TableAccess.Json (Reader)

namespace Value

/-- The kind of a value as JSON names it. -/
def kindName : Value → String
  | .null => "Null"
  | .integer _ => "Integer"
  | .float _ => "Float"
  | .text _ => "Text"
  | .date _ => "Date"

/-- The content of a value; null has none. -/
def content? : Value → Option Json
  | .null => none
  | .integer i => some (.ofInt i.toInt)
  | .float x => some (.ofFloat x)
  | .text s => some (.string s)
  | .date d => some (.string (String.ofList d.text))

def toJson (v : Value) : Json :=
  .object (("type", .string v.kindName) :: (v.content?.map ("value", ·)).toList)

/-- The value of a kind and its content. -/
def ofContent? (kind : String) (content : Option Json) : Option Value :=
  match kind, content with
  | "Null", none | "Null", some .null => some .null
  | "Integer", some (.number (.integer i)) => (Number.toInt64? i).map .integer
  | "Float", some (.number (.integer i)) => some (.float (.ofInt i))
  | "Float", some (.number (.float x)) => some (.float x)
  | "Text", some (.string s) => some (.text s)
  | "Date", some (.string s) => (Date.read? .spaced s.toList).map .date
  | _, _ => none

/-- A field of the record of a value. -/
inductive Field where
  | kind (name : String)
  | content (v : Json)

def kindReader : Reader Field := Json.choiceReader.map? (some ∘ Field.kind)

def contentReader : Reader Field := Json.valueReader.map? (some ∘ Field.content)

def fieldReader? (key : String) : Option (Reader Field) :=
  if key == "type" then some kindReader
  else if key == "value" then some contentReader
  else none

/-- The value of its fields, in either order. -/
def ofFields? : List Field → Option Value
  | [.kind name] => ofContent? name none
  | [.kind name, .content v] | [.content v, .kind name] => ofContent? name (some v)
  | _ => none

/-- A value from its record, or from the array of its kind and content. -/
def reader : Reader Value := fun s =>
  if Json.startsWith '[' s then
    (Json.readPlaces [kindReader, contentReader]).map?
      (fun fields => if fields.length = 2 then ofFields? fields else none) s
  else (Json.readFields fieldReader?).map? ofFields? s

/-- The value of a JSON text. -/
def ofJsonText? (s : String) : Option Value := Json.atEnd? (reader s.toList)

def jsonText (v : Value) : String := String.ofList v.toJson.compact

end Value

namespace Cell

def toJson (c : Cell) : Json := .object [("column", .string c.column), ("value", c.value.toJson)]

/-- A field of the record of a cell. -/
inductive Field where
  | column (name : String)
  | value (v : Value)

def columnReader : Reader Field := Json.stringReader.map? (some ∘ Field.column)

def valueReader : Reader Field := Value.reader.map? (some ∘ Field.value)

def fieldReader? (key : String) : Option (Reader Field) :=
  if key == "column" then some columnReader
  else if key == "value" then some valueReader
  else none

/-- The cell of its fields, in either order. -/
def ofFields? : List Field → Option Cell
  | [.column name, .value v] | [.value v, .column name] => some ⟨name, v⟩
  | _ => none

/-- A cell from its record, or from the array of its column and value. -/
def reader : Reader Cell := fun s =>
  if Json.startsWith '[' s then (Json.readPlaces [columnReader, valueReader]).map? ofFields? s
  else (Json.readFields fieldReader?).map? ofFields? s

end Cell

namespace Row

def toJson (r : Row) : Json := .object [("cells", .array (r.cells.map Cell.toJson))]

/-- The list of cells. -/
def cellsReader : Reader (List Cell) := fun s =>
  match Json.expect? '[' s with
  | none => none
  | some r => Json.readSequence Cell.reader ']' r

def fieldReader? (key : String) : Option (Reader (List Cell)) :=
  if key == "cells" then some cellsReader else none

/-- The row of its only field. -/
def ofFields? : List (List Cell) → Option Row
  | [cells] => some ⟨cells⟩
  | _ => none

/-- A row from its record, or from the array of its only field. -/
def reader : Reader Row := fun s =>
  if Json.startsWith '[' s then (Json.readPlaces [cellsReader]).map? ofFields? s
  else (Json.readFields fieldReader?).map? ofFields? s

/-- The row of a JSON text. -/
def ofJsonText? (s : String) : Option Row := Json.atEnd? (reader s.toList)

def jsonText (r : Row) : String := String.ofList r.toJson.compact

end Row

end TableAccess
