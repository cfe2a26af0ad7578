import TableAccess.Dbase.Cell
import TableAccess.Error

/-!
# Reading table files

A file has a header of 32 bytes, a description of 32 bytes for each field, a terminator, and
records of one size.  The header announces where the records start, how long they are and how
many there are; what it announces must agree with the fields and be there in full.  Records whose
flag says so are deleted and are passed over.
-/

namespace TableAccess.Dbase

open TableAccess.Number (ofLittleEndian)

/-- What is wrong with a table file. -/
inductive FormatProblem where
  | shortHeader (size : Nat)
  | headerLength (announced : Nat)
  | truncatedField
  | noTerminator
  | emptyName (position : Nat)
  | zeroLength (name : String)
  | noFields
  | recordLength (announced expected : Nat)
  | missingRecords (held count length : Nat)
deriving DecidableEq

def FormatProblem.message : FormatProblem → String
  | .shortHeader size =>
    "header is " ++ toString size ++ " bytes, expected at least " ++ toString blockLength
  | .headerLength n => "invalid header length " ++ toString n
  | .truncatedField => "truncated field descriptor"
  | .noTerminator => "missing field descriptor terminator"
  | .emptyName position => "field " ++ toString position ++ " has an empty name"
  | .zeroLength name => "field '" ++ name ++ "' has zero length"
  | .noFields => "table has no fields"
  | .recordLength announced expected =>
    "record length " ++ toString announced ++ " does not match field descriptors (" ++
      toString expected ++ ")"
  | .missingRecords held count length =>
    "file holds " ++ toString held ++ " record bytes, header announces " ++ toString count ++
      " records of " ++ toString length ++ " bytes"

/-- The part of a list from a position on, at most `size` items long. -/
def slice (start size : Nat) (bytes : List α) : List α := (bytes.drop start).take size

/-- The byte at a position, zero behind the end. -/
def byteAt (position : Nat) (bytes : List UInt8) : UInt8 := bytes.getD position 0

/-- The name in a description: what stands before the first zero byte, without blanks around. -/
def nameOf (block : List UInt8) : String :=
  String.ofList (Text.trim (Text.decodeLossy ((block.take nameRoom).takeWhile (· != 0))))

/-- The field of a description. -/
def fieldOf (block : List UInt8) : Field :=
  ⟨nameOf block, .ofCode (byteAt 11 block), byteAt 16 block, byteAt 17 block⟩

/-- Why a field cannot be used; fields are counted from one. -/
def Field.problem? (f : Field) (position : Nat) : Option FormatProblem :=
  if f.name.isEmpty then some (.emptyName position)
  else if f.length = 0 then some (.zeroLength f.name)
  else none

/-- The fields described up to the terminator, the first one at a position, in an area with room
for so many descriptions. -/
def readFields (position : Nat) : Nat → List UInt8 → Except FormatProblem (List Field)
  | _, [] => .error .noTerminator
  | 0, b :: _ => if b = terminator then .ok [] else .error .truncatedField
  | room + 1, b :: r =>
    if b = terminator then .ok []
    else
      let f := fieldOf ((b :: r).take blockLength)
      match f.problem? position with
      | some problem => .error problem
      | none => (readFields (position + 1) room ((b :: r).drop blockLength)).map (f :: ·)

/-- The fields described in an area. -/
def readArea (area : List UInt8) : Except FormatProblem (List Field) :=
  readFields 1 (area.length / blockLength) area

/-- The values of the cells of a record, after its flag. -/
def readCells : List Field → List UInt8 → List Value
  | [], _ => []
  | f :: fields, bytes => f.decode (bytes.take f.width) :: readCells fields (bytes.drop f.width)

/-- The rows of the records that are not deleted; each record has a flag byte and `size` more. -/
def readRecords (fields : List Field) (size : Nat) : Nat → List UInt8 → List (List Value)
  | 0, _ => []
  | _ + 1, [] => []
  | count + 1, flag :: r =>
    let rows := readRecords fields size count (r.drop size)
    if flag = deletedFlag then rows else readCells fields (r.take size) :: rows

/-- The table in the bytes of a file. -/
def ofBytes (bytes : List UInt8) : Except FormatProblem Table :=
  let headerLength := ofLittleEndian (slice 8 2 bytes)
  let length := ofLittleEndian (slice 10 2 bytes)
  let count := ofLittleEndian (slice 4 4 bytes)
  if bytes.length < blockLength then .error (.shortHeader bytes.length)
  else if headerLength ≤ blockLength ∨ bytes.length < headerLength then
    .error (.headerLength headerLength)
  else
    match readArea (slice blockLength (headerLength - blockLength) bytes) with
    | .error problem => .error problem
    | .ok [] => .error .noFields
    | .ok (f :: r) =>
      let fields := f :: r
      let data := bytes.drop headerLength
      if length ≠ recordLength fields then
        .error (.recordLength length (recordLength fields))
      else if data.length < count * length then
        .error (.missingRecords data.length count length)
      else .ok ⟨fields, readRecords fields (length - 1) count data⟩

/-- The table in a file; a problem is reported with the path it came from. -/
def parse (bytes : List UInt8) (origin : String) : Except Error Table :=
  match ofBytes bytes with
  | .ok t => .ok t
  | .error problem => .error (.corrupt origin problem.message)

end TableAccess.Dbase
