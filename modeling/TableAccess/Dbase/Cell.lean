import TableAccess.Date.Reader
import TableAccess.Dbase.Basic
import TableAccess.Number.LittleEndian
import TableAccess.Number.Reader
import TableAccess.Text.Blank
import TableAccess.Text.Utf8

/-!
# Cells of fixed-width records

Reading a cell never fails: what is not understood stays a text, and a cell without content is
null.  Writing a cell fails for a value that the kind of its field cannot hold.
-/

namespace TableAccess.Dbase

open TableAccess.Number (littleEndianInt intOfLittleEndian readInt64? readFloat?)

/-- The text of a cell without what fills it up. -/
def trimmedText (raw : List UInt8) : List Char :=
  Text.dropEnds Text.isPadding (Text.decodeLossy raw)

/-- The number of a text.  Without decimals a whole number is preferred. -/
def numberOf (decimals : Nat) (s : List Char) : Value :=
  match (if decimals = 0 then readInt64? s else none) with
  | some i => .integer i
  | none =>
    match readFloat? s with
    | some x => .float x
    | none => .text (String.ofList s)

/-- The date that the text is read as, or the text itself. -/
def dateOf (s : List Char) : Value :=
  match Date.read? .compact s with
  | some d => .date d
  | none => .text (String.ofList s)

/-- The truth value of a letter. -/
def logicalOf : List UInt8 → Value
  | [] => .null
  | b :: _ =>
    if b = 0x54 ∨ b = 0x74 ∨ b = 0x59 ∨ b = 0x79 then .integer 1
    else if b = 0x46 ∨ b = 0x66 ∨ b = 0x4E ∨ b = 0x6E then .integer 0
    else .null

/-- The value in the bytes of a cell. -/
def Field.decode (f : Field) (raw : List UInt8) : Value :=
  match f.kind with
  | .character =>
    .text (String.ofList (Text.dropBack Text.isPadding (Text.decodeLossy raw)))
  | .numeric | .float =>
    let s := trimmedText raw
    if s.all (· == '*') then .null else numberOf f.decimals.toNat s
  | .date =>
    let s := trimmedText raw
    if s.all (· == '0') then .null else dateOf s
  | .logical => logicalOf raw
  | .integer =>
    if raw.length = 4 then .integer (Int64.ofInt (intOfLittleEndian raw)) else .null
  | .other _ => .text (String.ofList (trimmedText raw))

/-- Why a value cannot be written into a cell. -/
inductive CellProblem where
  /-- The number needs more than four bytes. -/
  | tooLarge (i : Int64)
  /-- The digits need more room than the cell has. -/
  | tooWide (text : String) (width : Nat)
  /-- The kind of field does not hold such values. -/
  | wrongKind (typeName : String) (code : UInt8)
deriving DecidableEq

def CellProblem.message : CellProblem → String
  | .tooLarge i => Value.field (.integer i) ++ " does not fit in an I field"
  | .tooWide text width => text ++ " is wider than " ++ toString width ++ " characters"
  | .wrongKind typeName code =>
    "cannot store a " ++ typeName ++ " value in a " ++ String.ofList [Char.ofNat code.toNat] ++
      " field"

/-- Spaces. -/
def blanks (n : Nat) : List UInt8 := List.replicate n liveFlag

/-- The digits of a number in a field with that many decimals; other values have none. -/
def digitsOf? (decimals : Nat) (v : Value) : Option (List Char) :=
  match v with
  | .integer i =>
    some (if decimals = 0 then Number.intText i.toInt
      else Number.fixedText decimals (.ofInt i.toInt))
  | .float x => some (Number.fixedText decimals x)
  | _ => none

/-- Digits at the right end of a cell. -/
def numberCell (width : Nat) (digits : List Char) : Except CellProblem (List UInt8) :=
  if width < digits.length then .error (.tooWide (String.ofList digits) width)
  else .ok (blanks (width - digits.length) ++ Text.encode digits)

/-- As much of a text as fits, at the left end of a cell. -/
def textCell (width : Nat) (s : List Char) : List UInt8 :=
  let kept := Text.takeBytes width s
  Text.encode kept ++ blanks (width - Text.byteLength kept)

/-- The number fits into four bytes. -/
def fitsInt32 (i : Int) : Bool := -2147483648 ≤ i && i ≤ 2147483647

/-- The bytes of a cell with a value. -/
def Field.encode (f : Field) (v : Value) : Except CellProblem (List UInt8) :=
  let refused : Except CellProblem (List UInt8) := .error (.wrongKind v.typeName f.kind.code)
  match f.kind with
  | .integer =>
    match v with
    | .null => .ok (littleEndianInt 4 0)
    | .integer i =>
      if fitsInt32 i.toInt then .ok (littleEndianInt 4 i.toInt) else .error (.tooLarge i)
    | _ => refused
  | .logical =>
    match v with
    | .null => .ok [0x3F]
    | .integer i => .ok [if i = 0 then 0x46 else 0x54]
    | _ => refused
  | .date =>
    match v with
    | .null => .ok (blanks f.width)
    | .date d => .ok (Text.encode d.compactText)
    | _ => refused
  | .numeric | .float =>
    match v with
    | .null => .ok (blanks f.width)
    | v =>
      match digitsOf? f.decimals.toNat v with
      | some digits => numberCell f.width digits
      | none => refused
  | .character | .other _ => .ok (textCell f.width v.fieldText)

end TableAccess.Dbase
