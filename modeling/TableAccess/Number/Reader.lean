import TableAccess.Number.Digits
import TableAccess.Number.Binary64

/-!
# Reading floating point numbers

A number in a record field is a sign, digits with an optional point, and an optional exponent;
the words for infinity and for not-a-number count too.  The result is the floating point number
nearest to the written one.
-/

namespace TableAccess.Number

/-- The number nearest to `digits · 10 ^ exponent`.  Beyond the range of the format the exact
power is not needed: the result is infinite or zero. -/
def nearestDecimal (negative : Bool) (digits : Nat) (exponent : Int) : Binary64 :=
  let e := exponent + (natText digits).length
  if digits = 0 ∨ e < -400 then .zero negative
  else if 400 < e then .infinity negative
  else .ofRatio negative (digits * Nat.pow 10 exponent.toNat) (Nat.pow 10 (-exponent).toNat)

/-- The exponent part at the end of a number: nothing, or the mark, a sign and digits. -/
def readExponent? : List Char → Option Int
  | [] => some 0
  | c :: r =>
    if c == 'e' || c == 'E' then
      let (negative, digits) := splitSign r
      (readNat? digits).map (signed negative)
    else none

/-- The size of a number: digits around an optional point, at least one of them, and an optional
exponent, to the end of the text. -/
def readSize? (negative : Bool) (s : List Char) : Option Binary64 :=
  let whole := s.takeWhile isDigit
  let rest := s.dropWhile isDigit
  let (fraction, tail) := match rest with
    | '.' :: r => (r.takeWhile isDigit, r.dropWhile isDigit)
    | r => ([], r)
  if whole.isEmpty && fraction.isEmpty then none
  else (readExponent? tail).map fun e =>
    nearestDecimal negative (ofDigits (whole ++ fraction)) (e - fraction.length)

/-- A word in any case. -/
def isWord (word : String) (s : List Char) : Bool := s.map Char.toLower == word.toList

/-- A number, an infinity or a NaN, with an optional sign, to the end of the text. -/
def readFloat? (s : List Char) : Option Binary64 :=
  let (negative, size) := splitSign s
  if isWord "inf" size || isWord "infinity" size then some (.infinity negative)
  else if isWord "nan" size then some (.quietNan negative 0)
  else readSize? negative size

end TableAccess.Number
