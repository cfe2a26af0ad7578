import TableAccess.Clock
import TableAccess.Date.Shift
import TableAccess.Server.Array
import TableAccess.Server.Conversion
import TableAccess.Text.Hex

/-!
# Values of PostgreSQL

The type of a column decides how its cells are read.  A cell that its type cannot make sense of
has no value; cells of types that are not known are read as text.
-/

namespace TableAccess.Server.Postgres

/-- What is known about the type of a column. -/
inductive ColumnType where
  | boolean
  /-- A number that is read in a word. -/
  | integer (w : Word)
  | single
  | double
  | numeric
  | text
  | binary
  | date
  | time
  | timestamp
  | zonedTimestamp
  | uuid
  | json
  | scalarArray (element : ScalarType)
  | textArray
  /-- Any other type. -/
  | unknown
deriving DecidableEq

/-- The types that are known by name. -/
def typeNames : List (String × ColumnType) :=
  [ ("BOOL", .boolean), ("INT2", .integer .int16), ("INT4", .integer .int32),
    ("INT8", .integer .int64),
    ("FLOAT4", .single), ("FLOAT8", .double), ("NUMERIC", .numeric), ("TEXT", .text),
    ("VARCHAR", .text), ("CHAR", .text), ("BPCHAR", .text), ("NAME", .text),
    ("BYTEA", .binary), ("DATE", .date), ("TIME", .time), ("TIMESTAMP", .timestamp),
    ("TIMESTAMPTZ", .zonedTimestamp), ("UUID", .uuid), ("JSON", .json), ("JSONB", .json),
    ("INT4[]", .scalarArray (.integer .int32)), ("INT8[]", .scalarArray (.integer .int64)),
    ("FLOAT8[]", .scalarArray .double), ("BOOL[]", .scalarArray .boolean),
    ("TEXT[]", .textArray), ("VARCHAR[]", .textArray) ]

def ColumnType.ofName (name : String) : ColumnType := (typeNames.lookup name).getD .unknown

/-- The time of day after so many microseconds; a whole day is midnight again. -/
def timeOf? : Datum → Option Value
  | .time us => some (.text (String.ofList (Clock.text (us % Clock.microsecondsPerDay).toNat)))
  | _ => none

/-- A day and a time, with a text behind. -/
def momentOf? (zone : String) : Datum → Option Value
  | .moment d us =>
    (d.after? (us / Clock.microsecondsPerDay)).map fun day =>
      .text (String.ofList (Clock.momentText day (us % Clock.microsecondsPerDay)) ++ zone)
  | _ => none

/-- The digits of sixteen bytes in five groups. -/
def uuidText (bytes : List UInt8) : List Char :=
  let digits := Text.hexBytes bytes
  digits.take 8 ++ '-' :: ((digits.drop 8).take 4 ++ '-' :: ((digits.drop 12).take 4 ++
    '-' :: ((digits.drop 16).take 4 ++ '-' :: digits.drop 20)))

def uuidOf? : Datum → Option Value
  | .bytes b => if b.length = 16 then some (.text (String.ofList (uuidText b))) else none
  | _ => none

/-- The value of a datum in a column of a type. -/
def datumValue? (t : ColumnType) (d : Datum) : Option Value :=
  match t with
  | .boolean =>
    match d with
    | .bool b => some (.ofBool b)
    | _ => none
  | .integer w => d.asInteger? w
  | .single => d.asSingle?
  | .double => d.asDouble?
  | .numeric => d.asNumeric? Numeric.cutText?
  | .text | .unknown => d.asText?
  | .binary => d.asBinary?
  | .date =>
    match d with
    | .date day => some (.date day)
    | _ => none
  | .time => timeOf? d
  | .timestamp => momentOf? "" d
  | .zonedTimestamp => momentOf? " UTC" d
  | .uuid => uuidOf? d
  | .json => d.asJson?
  | .scalarArray _ | .textArray => none

/-- The characters of a text element. -/
def elementText? : Datum → Option (List Char)
  | .bytes b => Text.decode? b
  | _ => none

/-- The value of an array in a column of a type.  One element without a text spoils the array. -/
def arrayValue? (t : ColumnType) (items : List Datum) : Option Value :=
  match t with
  | .scalarArray element =>
    (items.mapM (scalarText? element)).map fun parts => .text (String.ofList (braced parts))
  | .textArray =>
    (items.mapM elementText?).map fun parts => .text (String.ofList (textArray parts))
  | _ => none

/-- The value of a cell that is not null. -/
def cellValue? (t : ColumnType) : Cell → Option Value
  | .datum d => datumValue? t d
  | cell => (plainItems? cell).bind (arrayValue? t)

end TableAccess.Server.Postgres
