import TableAccess.Date.Basic
import TableAccess.Number.Printer
import TableAccess.Text.Hex
import TableAccess.Text.Quoted

/-!
# Values

The closed set of scalars into which every backend maps its cells: nothing, a signed 64-bit
number, a floating point number, a text or a date.  Nothing is shown as an empty text where a
value fills a field, and as `NULL` where it is shown on its own.
-/

namespace TableAccess

open TableAccess.Number (Binary64 Layout intText)

/-- A scalar value. -/
inductive Value where
  | null
  | integer (i : Int64)
  | float (x : Binary64)
  | text (s : String)
  | date (d : Date)
deriving DecidableEq

namespace Value

instance : Inhabited Value := ⟨.null⟩

def isNull : Value → Bool
  | .null => true
  | _ => false

/-- The name of the kind of value, for messages. -/
def typeName : Value → String
  | .null => "null"
  | .integer _ => "integer"
  | .float _ => "float"
  | .text _ => "text"
  | .date _ => "date"

/-- The value as it fills a field: nothing is empty, a text is itself. -/
def fieldText : Value → List Char
  | .null => []
  | .integer i => intText i.toInt
  | .float x => Layout.plain.text x
  | .text s => s.toList
  | .date d => d.text

/-- The value as it fills a field. -/
def field (v : Value) : String := String.ofList v.fieldText

/-- The value on its own: nothing is shown by its name. -/
def label : Value → String
  | .null => "NULL"
  | v => v.field

/-- Binary data is shown as a text of hexadecimal digits. -/
def ofBytes (bytes : List UInt8) : Value :=
  .text (String.ofList ('\\' :: 'x' :: Text.hexBytes bytes))

/-- Truth values are the numbers one and zero. -/
def ofBool (b : Bool) : Value := .integer (if b then 1 else 0)

/-- An absent value is null. -/
def ofOption (f : α → Value) : Option α → Value
  | some a => f a
  | none => .null

def asInteger? : Value → Option Int64
  | .integer i => some i
  | _ => none

/-- A floating point number, or an integer widened to the nearest one. -/
def asFloat? : Value → Option Binary64
  | .float x => some x
  | .integer i => some (.ofInt i.toInt)
  | _ => none

def asText? : Value → Option String
  | .text s => some s
  | _ => none

def asDate? : Value → Option Date
  | .date d => some d
  | _ => none

/-- Equality of values as numbers, texts and dates: a NaN equals nothing, and the two zeros are
equal. -/
def same : Value → Value → Bool
  | .float x, .float y => x.sameNumber y
  | v, w => v == w

/-- The value in a diagnostic text. -/
def shown : Value → String
  | .null => "Null"
  | .integer i => "Integer(" ++ String.ofList (intText i.toInt) ++ ")"
  | .float x => "Float(" ++ String.ofList (Layout.shown.text x) ++ ")"
  | .text s => "Text(" ++ Text.quoted s ++ ")"
  | .date d => "Date(" ++ String.ofList d.text ++ ")"

end Value

end TableAccess
