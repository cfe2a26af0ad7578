import TableAccess.Clock
import TableAccess.Number.LittleEndian
import TableAccess.Server.Conversion

/-!
# Values of MySQL

The type of a column decides how its cells are read.  A cell that its type cannot make sense of
has no value; cells of types that are not known are read as text, and else as a small number.
-/

namespace TableAccess.Server.MySql

open TableAccess.Number (intText intOfLittleEndian)

/-- What is known about the type of a column. -/
inductive ColumnType where
  /-- A number of one display digit. -/
  | boolean
  /-- A number that is read in a word. -/
  | integer (w : Word)
  /-- A number of 64 bits without a sign. -/
  | unsignedBig
  | single
  | double
  | decimal
  | text
  | binary
  | date
  | time
  | datetime
  | timestamp
  | json
  /-- A set of words, for which there is no reading. -/
  | set
  /-- Any other type. -/
  | unknown
deriving DecidableEq

/-- The types that are known by name. -/
def typeNames : List (String × ColumnType) :=
  [ ("BOOLEAN", .boolean), ("BOOL", .boolean), ("TINYINT", .integer .int8),
    ("TINYINT UNSIGNED", .integer .uint8), ("SMALLINT", .integer .int16),
    ("SMALLINT UNSIGNED", .integer .uint16), ("MEDIUMINT", .integer .int32),
    ("INT", .integer .int32), ("INTEGER", .integer .int32),
    ("MEDIUMINT UNSIGNED", .integer .uint32), ("INT UNSIGNED", .integer .uint32),
    ("INTEGER UNSIGNED", .integer .uint32), ("BIGINT", .integer .int64),
    ("BIGINT UNSIGNED", .unsignedBig), ("YEAR", .integer .uint16), ("FLOAT", .single),
    ("DOUBLE", .double), ("DOUBLE PRECISION", .double), ("REAL", .double),
    ("DECIMAL", .decimal), ("NUMERIC", .decimal), ("DEC", .decimal), ("FIXED", .decimal),
    ("CHAR", .text), ("VARCHAR", .text), ("TINYTEXT", .text), ("TEXT", .text),
    ("MEDIUMTEXT", .text), ("LONGTEXT", .text), ("BINARY", .binary), ("VARBINARY", .binary),
    ("TINYBLOB", .binary), ("BLOB", .binary), ("MEDIUMBLOB", .binary), ("LONGBLOB", .binary),
    ("DATE", .date), ("TIME", .time), ("DATETIME", .datetime), ("TIMESTAMP", .timestamp),
    ("JSON", .json) ]

/-- Enumerations and sets are known by how their names begin. -/
def ColumnType.ofName (name : String) : ColumnType :=
  match typeNames.lookup name with
  | some t => t
  | none =>
    if "ENUM".toList.isPrefixOf name.toList then .text
    else if "SET".toList.isPrefixOf name.toList then .set
    else .unknown

/-- A number as a truth value. -/
def booleanOf? : Datum → Option Value
  | .integer i => some (.ofBool (i != 0))
  | _ => none

/-- A number of 64 bits without a sign; one beyond 64 bits with a sign is a text of its digits. -/
def unsignedOf? (d : Datum) : Option Value :=
  (d.inWord? .uint64).map fun i =>
    match Number.toInt64? i with
    | some n => .integer n
    | none => .text (String.ofList (intText i))

/-- The day of a date, if there is such a day. -/
def dayOf? : Datum → Option Date
  | .calendar (some (year, month, day)) _ => Date.of? year month day
  | _ => none

/-- The microseconds since midnight, if they are less than a day. -/
def timeWithinDay? (us : Nat) : Option Nat :=
  if us < Clock.microsecondsPerDay then some us else none

/-- A span of less than a day; its sign is lost. -/
def timeOf? : Datum → Option Value
  | .time us => (timeWithinDay? us.natAbs).map fun us => .text (String.ofList (Clock.text us))
  | _ => none

/-- A day and a time, with a text behind. -/
def momentOf? (zone : String) (d : Datum) : Option Value :=
  match d with
  | .calendar _ us => do
    let day ← dayOf? d
    let us ← timeWithinDay? us
    some (.text (String.ofList (Clock.momentText day us) ++ zone))
  | _ => none

/-- Bytes as text, else up to eight of them as a number, the lowest one first. -/
def fallback? (d : Datum) : Option Value :=
  match d.asText?, d with
  | some v, _ => some v
  | none, .bytes b => if b.length ≤ 8 then some (.integer (.ofInt (intOfLittleEndian b))) else none
  | none, _ => none

/-- The value of a datum in a column of a type. -/
def datumValue? (t : ColumnType) (d : Datum) : Option Value :=
  match t with
  | .boolean => booleanOf? d
  | .integer w => d.asInteger? w
  | .unsignedBig => unsignedOf? d
  | .single => d.asSingle?
  | .double => d.asDouble?
  | .decimal => d.asNumeric? Numeric.roundedText?
  | .text => d.asText?
  | .binary => d.asBinary?
  | .date => (dayOf? d).map .date
  | .time => timeOf? d
  | .datetime => momentOf? "" d
  | .timestamp => momentOf? " UTC" d
  | .json => d.asJson?
  | .set => none
  | .unknown => fallback? d

/-- The value of a cell that is not null; arrays do not occur. -/
def cellValue? (t : ColumnType) : Cell → Option Value
  | .datum d => datumValue? t d
  | .array _ _ _ => none

end TableAccess.Server.MySql
