/-!
# Hexadecimal digits

Bytes are shown as pairs of lower-case hexadecimal digits.
-/

namespace TableAccess.Text

/-- The digit for a number below sixteen. -/
def hexDigit (n : Nat) : Char :=
  if n < 10 then Char.ofNat (48 + n) else Char.ofNat (87 + n)

def hexByte (b : UInt8) : List Char := [hexDigit (b.toNat / 16), hexDigit (b.toNat % 16)]

/-- Two lower-case digits for each byte, in order. -/
def hexBytes (bytes : List UInt8) : List Char := bytes.flatMap hexByte

/-- The number a digit of either case stands for. -/
def hexValue? (c : Char) : Option Nat :=
  if '0' ≤ c && c ≤ '9' then some (c.toNat - 48)
  else if 'a' ≤ c && c ≤ 'f' then some (c.toNat - 87)
  else if 'A' ≤ c && c ≤ 'F' then some (c.toNat - 55)
  else none

/-- Hexadecimal digits of a number, without leading zeros. -/
def hexNumber (n : Nat) : List Char := (Nat.toDigits 16 n)

end TableAccess.Text
