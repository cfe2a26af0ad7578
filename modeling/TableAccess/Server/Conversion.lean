import TableAccess.Json.Parser
import TableAccess.Json.Printer
import TableAccess.Server.Script
import TableAccess.Text.Utf8
import TableAccess.Value

/-!
# Values of data

How one datum becomes a value under a reading that several column types share.  A datum of
another form, or one that does not fit, has no value under that reading.
-/

namespace TableAccess.Server

/-- The words in which whole numbers are read. -/
inductive Word where
  | int8
  | uint8
  | int16
  | uint16
  | int32
  | uint32
  | int64
  | uint64
deriving DecidableEq

namespace Word

def bits : Word → Nat
  | .int8 | .uint8 => 8
  | .int16 | .uint16 => 16
  | .int32 | .uint32 => 32
  | .int64 | .uint64 => 64

def isSigned : Word → Bool
  | .int8 | .int16 | .int32 | .int64 => true
  | .uint8 | .uint16 | .uint32 | .uint64 => false

/-- The least number of the word. -/
def least (w : Word) : Int := if w.isSigned then -(Nat.pow 2 (w.bits - 1) : Nat) else 0

/-- The least number beyond the word. -/
def bound (w : Word) : Int :=
  if w.isSigned then (Nat.pow 2 (w.bits - 1) : Nat) else (Nat.pow 2 w.bits : Nat)

end Word

namespace Datum

/-- Bytes as the text they encode. -/
def asText? : Datum → Option Value
  | .bytes b => (Text.decode? b).map fun s => .text (String.ofList s)
  | _ => none

/-- Bytes as their digits. -/
def asBinary? : Datum → Option Value
  | .bytes b => some (.ofBytes b)
  | _ => none

/-- Bytes as a JSON text, written anew without blanks. -/
def asJson? : Datum → Option Value
  | .bytes b => (Json.ofBytes? b).map fun v => .text (String.ofList v.compact)
  | _ => none

/-- A whole number that the word holds. -/
def inWord? (w : Word) : Datum → Option Int
  | .integer i => if w.least ≤ i ∧ i < w.bound then some i else none
  | _ => none

/-- A whole number of a word whose numbers all have 64 bits with a sign. -/
def asInteger? (w : Word) (d : Datum) : Option Value :=
  (d.inWord? w).map fun i => .integer (.ofInt i)

/-- A floating point number of 32 bits, widened without loss. -/
def asSingle? : Datum → Option Value
  | .single bits => some (.float (.ofBinary32 bits))
  | _ => none

def asDouble? : Datum → Option Value
  | .double x => some (.float x)
  | _ => none

/-- The text of a decimal number by the rule of a dialect. -/
def asNumeric? (rule : Numeric → Option (List Char)) : Datum → Option Value
  | .numeric n => (rule n).map fun s => .text (String.ofList s)
  | _ => none

end Datum

end TableAccess.Server
