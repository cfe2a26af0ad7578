/-!
# Decimal digits

Whole numbers as runs of ASCII digits: writing them without leading zeros, and reading a run
back, with the signed 64-bit range where a reader wants it.
-/

namespace TableAccess.Number

def isDigit (c : Char) : Bool := '0' ≤ c && c ≤ '9'

/-- The number that one digit stands for. -/
def digitValue (c : Char) : Nat := c.toNat - 48

/-- The number that a run of digits stands for, after the digits `n`. -/
def ofDigitsFrom (n : Nat) (digits : List Char) : Nat :=
  digits.foldl (fun n c => n * 10 + digitValue c) n

def ofDigits (digits : List Char) : Nat := ofDigitsFrom 0 digits

/-- The digits of a number, without leading zeros. -/
def natText (n : Nat) : List Char := Nat.toDigits 10 n

/-- A minus sign for a negative number, then the digits of its size. -/
def intText : Int → List Char
  | .ofNat n => natText n
  | .negSucc n => '-' :: natText (n + 1)

/-- The number as a run of at least `width` digits. -/
def paddedText (width n : Nat) : List Char :=
  List.replicate (width - (natText n).length) '0' ++ natText n

/-- A run of digits that is not empty and goes to the end of the text. -/
def readNat? (s : List Char) : Option Nat :=
  if s.isEmpty || !s.all isDigit then none else some (ofDigits s)

/-- Smallest and largest signed 64-bit number. -/
def minInt64 : Int := -9223372036854775808

def maxInt64 : Int := 9223372036854775807

/-- The number lies in the signed 64-bit range. -/
def fitsInt64 (i : Int) : Bool := minInt64 ≤ i && i ≤ maxInt64

/-- The sign at the front, if there is one, and what follows it. -/
def splitSign : List Char → Bool × List Char
  | '-' :: r => (true, r)
  | '+' :: r => (false, r)
  | r => (false, r)

/-- Attach a sign to a size. -/
def signed (negative : Bool) (n : Nat) : Int := if negative then -(n : Int) else (n : Int)

/-- The 64-bit word of a number in range. -/
def toInt64? (i : Int) : Option Int64 := if fitsInt64 i then some (Int64.ofInt i) else none

/-- A signed 64-bit number: an optional sign and digits to the end. -/
def readInt64? (s : List Char) : Option Int64 := do
  let (negative, digits) := splitSign s
  let n ← readNat? digits
  toInt64? (signed negative n)

end TableAccess.Number
